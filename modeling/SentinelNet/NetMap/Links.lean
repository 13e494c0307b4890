import SentinelNet.NetMap.Names
import SentinelNet.Probes.SiteBoundary

/-!
# Links between nodes

Every announcement adds its ports to the link between the announcing device and the node that it
leads to, and this node is there afterwards.  The announcing device is there if it is in the
inventory, or if some announcement leads to it; and the two are different where no announcement
leads back to its own device.

* `Gathered`, `gathered_foldl`: what the loop has gathered of the links.
* `target_eq_iff`, `has_nodes_foldl`: what an announcement leads to, and the nodes.
* `Sources.Straight`, `intact_iff`: when the maps of all groups are intact.
-/

namespace SentinelNet.NetMap

open PyDict PyText Inventory Backups Assoc

variable {c : Classifiers} {w : Sources} {d : Drawing} {e : String × Neighbor}

/-! ## Pairs -/

theorem linkKey_eq_iff {a b a' b' : String} :
    linkKey a b = linkKey a' b' ↔ (a = a' ∧ b = b') ∨ (a = b' ∧ b = a') := by
  unfold linkKey
  rw [Prod.mk.injEq]
  constructor
  · rintro ⟨hmin, hmax⟩
    rcases le_total a b with hab | hab <;> rcases le_total a' b' with hab' | hab'
    · rw [min_eq_left hab, min_eq_left hab'] at hmin
      rw [max_eq_right hab, max_eq_right hab'] at hmax
      exact .inl ⟨hmin, hmax⟩
    · rw [min_eq_left hab, min_eq_right hab'] at hmin
      rw [max_eq_right hab, max_eq_left hab'] at hmax
      exact .inr ⟨hmin, hmax⟩
    · rw [min_eq_right hab, min_eq_left hab'] at hmin
      rw [max_eq_left hab, max_eq_right hab'] at hmax
      exact .inr ⟨hmax, hmin⟩
    · rw [min_eq_right hab, min_eq_right hab'] at hmin
      rw [max_eq_left hab, max_eq_left hab'] at hmax
      exact .inl ⟨hmax, hmin⟩
  · rintro (⟨rfl, rfl⟩ | ⟨rfl, rfl⟩)
    · exact ⟨rfl, rfl⟩
    · exact ⟨min_comm a b, max_comm a b⟩

/-! ## Where announcements lead -/

/-- The announcements of a list with the nodes they lead to. -/
def resolved (c : Classifiers) (w : Sources) :
    Drawing → List (String × Neighbor) → List ((String × Neighbor) × String)
  | _, [] => []
  | d, e :: es => (e, w.target d e.1 e.2) :: resolved c w (announce c w d e) es

theorem resolved_append (es es' : List (String × Neighbor)) : resolved c w d (es ++ es') =
    resolved c w d es ++ resolved c w (es.foldl (announce c w) d) es' := by
  induction es generalizing d with
  | nil => rfl
  | cons e es ih =>
    rw [List.cons_append, resolved, ih]
    rfl

theorem mem_resolved {es : List (String × Neighbor)} {t : String}
    (h : (e, t) ∈ resolved c w d es) : ∃ pre post, es = pre ++ e :: post ∧
      t = w.target (pre.foldl (announce c w) d) e.1 e.2 := by
  induction es generalizing d with
  | nil => cases h
  | cons e' es ih =>
    rcases List.mem_cons.mp h with heq | h
    · obtain ⟨rfl, rfl⟩ := Prod.mk.inj heq
      exact ⟨[], es, rfl, rfl⟩
    · obtain ⟨pre, post, rfl, ht⟩ := ih h
      exact ⟨e' :: pre, post, rfl, ht⟩

theorem resolved_of_append {pre post : List (String × Neighbor)} :
    (e, w.target (pre.foldl (announce c w) d) e.1 e.2) ∈ resolved c w d (pre ++ e :: post) := by
  rw [resolved_append]
  exact List.mem_append_right _ List.mem_cons_self

/-- The announcements of a map with their nodes. -/
def drawn (c : Classifiers) (w : Sources) : List ((String × Neighbor) × String) :=
  resolved c w (Drawing.initial c w) w.announcements

theorem exists_numbered (name : String) (i : ℕ) :
    ∃ s, numbered ("discovered_" ++ name) i = "discovered_" ++ s := by
  unfold numbered
  split
  · exact ⟨name, rfl⟩
  · exact ⟨name ++ "~" ++ str (i + 1), by rw [String.append_assoc, String.append_assoc,
      String.append_assoc]⟩

theorem exists_discoveredKey (sightings : Dict Sighting) (ip : String) (n : Neighbor) :
    ∃ s, w.discoveredKey sightings ip n = "discovered_" ++ s := by
  unfold Sources.discoveredKey FreshNames.firstFree
  dsimp only
  obtain ⟨m, -, -, hm, -⟩ := FreshNames.exists_firstFrom
    (numbered ("discovered_" ++ sanitizeFilename (baseName n.neighborId)))
    ((sightings.filter fun p => !w.sameDiscovered p.2 (w.sighting ip n)).map Prod.fst)
    ((sightings.filter fun p => !w.sameDiscovered p.2 (w.sighting ip n)).map Prod.fst).length 0
  rw [hm]
  exact exists_numbered _ m

/-- A text that an address may be: it is not empty, and not the key of what was discovered. -/
def IsAddress (x : String) : Prop := x ≠ "" ∧ ∀ s, x ≠ "discovered_" ++ s

variable {x : String}

theorem isAddress_of_chars (hne : x ≠ "")
    (h : ∀ ch ∈ x.toList, ch.isDigit = true ∨ ch = '.') : IsAddress x := by
  refine ⟨hne, fun s hs => ?_⟩
  have hd : 'd' ∈ x.toList := by
    rw [hs, String.toList_append]
    exact List.mem_append_left _ (by decide)
  rcases h _ hd with h | h
  · exact absurd h (by decide)
  · exact absurd h (by decide)

/-- An announcement leads to an address: by its name or, if its name leads nowhere, as the address
that it announces, which is drawn already or is all that is known. -/
theorem target_eq_iff (hx : IsAddress x) : w.target d e.1 e.2 = x ↔
    w.leads e.1 e.2 = x ∨ (w.leads e.1 e.2 = "" ∧ e.2.neighborIp = x ∧
      (has d.nodes x = true ∨ e.2.hasName = false)) := by
  unfold Sources.target
  rw [named_eq_leads]
  by_cases hleads : w.leads e.1 e.2 = ""
  · have hne : ¬ w.leads e.1 e.2 = x := fun h => hx.1 (h.symm.trans hleads)
    rw [if_neg (not_not.mpr hleads), or_iff_right hne, and_iff_right hleads]
    by_cases hknown : e.2.neighborIp ≠ "" ∧ has d.nodes e.2.neighborIp = true
    · rw [if_pos hknown]
      constructor
      · rintro rfl
        exact ⟨rfl, .inl hknown.2⟩
      · exact And.left
    · rw [if_neg hknown]
      cases hname : e.2.hasName with
      | true =>
        obtain ⟨s, hs⟩ := exists_discoveredKey (w := w) d.sightings e.1 e.2
        rw [if_pos rfl, hs]
        refine iff_of_false (fun h => hx.2 s h.symm) ?_
        rintro ⟨rfl, hhas | hfalse⟩
        · exact hknown ⟨hx.1, hhas⟩
        · cases hfalse
      | false =>
        rw [if_neg Bool.false_ne_true]
        unfold orElse
        by_cases hempty : e.2.neighborIp = ""
        · rw [if_pos hempty]
          refine iff_of_false (fun h => hx.2 _ h.symm) ?_
          rintro ⟨rfl, -⟩
          exact hx.1 hempty
        · rw [if_neg hempty]
          exact ⟨fun h => ⟨h, .inr rfl⟩, And.left⟩
  · rw [if_pos hleads]
    exact ⟨.inl, fun h => h.elim id fun h => absurd h.1 hleads⟩

/-- An announcement leads to an address, whether or not this is drawn already. -/
def Sources.Direct (w : Sources) (e : String × Neighbor) (x : String) : Prop :=
  w.leads e.1 e.2 = x ∨
    (w.leads e.1 e.2 = "" ∧ e.2.hasName = false ∧ e.2.neighborIp = x)

theorem has_set {α : Type} (l : Dict α) (k x : String) (v : α) :
    has (set l k v) x = true ↔ x = k ∨ has l x = true := by
  unfold has
  rw [get?_set]
  split
  · next h => exact iff_of_true rfl (.inl h)
  · next h => exact (or_iff_right h).symm

theorem has_nodes_announce : has (announce c w d e).nodes x = true ↔
    x = w.target d e.1 e.2 ∨ has d.nodes x = true := has_set _ _ _ _

/-- The addresses that are drawn after some announcements. -/
theorem has_nodes_foldl (hx : IsAddress x) (es : List (String × Neighbor)) :
    has (es.foldl (announce c w) d).nodes x = true ↔
      has d.nodes x = true ∨ ∃ e ∈ es, w.Direct e x := by
  induction es generalizing d with
  | nil => exact (or_iff_left fun ⟨_, h, _⟩ => nomatch h).symm
  | cons e es ih =>
    have htarget : x = w.target d e.1 e.2 ∨ has d.nodes x = true ↔
        has d.nodes x = true ∨ w.Direct e x := by
      rw [eq_comm, target_eq_iff hx]
      unfold Sources.Direct
      constructor
      · rintro ((hleads | ⟨hnone, hip, hhas | hname⟩) | hhas)
        · exact .inr (.inl hleads)
        · exact .inl hhas
        · exact .inr (.inr ⟨hnone, hname, hip⟩)
        · exact .inl hhas
      · rintro (hhas | hleads | ⟨hnone, hname, hip⟩)
        · exact .inr hhas
        · exact .inl (.inl hleads)
        · exact .inl (.inr ⟨hnone, hip, .inr hname⟩)
    rw [List.foldl_cons, ih, has_nodes_announce, htarget, or_assoc, List.exists_mem_cons_iff]

theorem get?_initial (x : String) : get? (Drawing.initial c w).nodes x =
    (get? w.ipToDevice x).map (inventoryNode c w x) := by
  have hget : ∀ l : Dict Host, get? (l.map fun p => (p.1, inventoryNode c w p.1 p.2)) x =
      (get? l x).map (inventoryNode c w x) := by
    intro l
    induction l with
    | nil => rfl
    | cons p l ih =>
      rw [List.map_cons, get?_cons, get?_cons, ih]
      split
      · next h => rw [h]; rfl
      · rfl
  exact hget _

theorem has_initial : has (Drawing.initial c w).nodes x = true ↔ has w.ipToDevice x = true := by
  unfold has
  rw [get?_initial, Option.isSome_map]

/-- An announcement leads to an address that is drawn. -/
def Sources.aims (w : Sources) (x : String) (e : String × Neighbor) : Bool :=
  w.leads e.1 e.2 = x || (w.leads e.1 e.2 = "" && e.2.neighborIp = x)

/-- The node of an address that is drawn, after some announcements: what those that lead to it make
of it. -/
theorem get?_nodes_foldl (hx : IsAddress x) {node : Node}
    (hnode : get? d.nodes x = some node) (es : List (String × Neighbor)) :
    get? (es.foldl (announce c w) d).nodes x =
      some ((es.filter (w.aims x)).foldl (fun node e => refreshNode c e.2 x node) node) := by
  induction es generalizing d node with
  | nil => exact hnode
  | cons e es ih =>
    have hhas : has d.nodes x = true := Option.isSome_iff_exists.mpr ⟨node, hnode⟩
    have haims : w.target d e.1 e.2 = x ↔ w.aims x e = true := by
      rw [target_eq_iff hx]
      unfold Sources.aims
      rw [Bool.or_eq_true, Bool.and_eq_true, decide_eq_true_eq, decide_eq_true_eq,
        decide_eq_true_eq, hhas]
      simp only [true_or, and_true]
    rw [List.foldl_cons, List.filter_cons]
    by_cases htarget : w.target d e.1 e.2 = x
    · rw [if_pos (haims.mp htarget), List.foldl_cons]
      refine ih ?_
      unfold announce
      dsimp only
      rw [get?_set, htarget, if_pos rfl, hnode]
    · rw [if_neg fun h => htarget (haims.mpr h)]
      refine ih ?_
      unfold announce
      dsimp only
      rw [get?_set, if_neg (Ne.symm htarget), hnode]

theorem isAddress_of_reads {p : String × ParsedDevice} (h : p ∈ w.reads) : IsAddress p.1 := by
  obtain ⟨f, -, hf⟩ := List.mem_filterMap.mp h
  unfold readFile at hf
  split at hf
  · next ip b hip hb =>
    obtain ⟨rfl, -⟩ := Prod.mk.inj (Option.some.inj hf)
    obtain ⟨hne, hchars⟩ := firstAddress_chars hip
    exact isAddress_of_chars hne hchars
  · cases hf

theorem isAddress_of_announcements (h : e ∈ w.announcements) : IsAddress e.1 := by
  obtain ⟨p, hp, he⟩ := List.mem_flatMap.mp h
  obtain ⟨n, -, rfl⟩ := List.mem_map.mp he
  have hkey := List.mem_map_of_mem (f := Prod.fst) hp
  unfold Sources.parsedDevices at hkey
  rw [mem_keys_assign] at hkey
  obtain ⟨q, hq, hqp⟩ := List.mem_map.mp (hkey.resolve_left List.not_mem_nil)
  rw [← hqp]
  exact isAddress_of_reads hq

/-! ## What is gathered of a link -/

/-- The own ports of a device that are gathered. -/
def Bundle.portsAt (b : Bundle) (ip : String) : Dict String :=
  if ip = b.source then b.srcPorts else b.tgtPorts

def Named (ports : Dict String) : Prop := ∀ p ∈ ports, p.1 = normalizeIface p.2

theorem Named.addPort {ports : Dict String} (h : Named ports) (port : String) :
    Named (addPort ports port) := by
  unfold NetMap.addPort
  split
  · exact h
  · intro p hp
    rcases mem_set hp with heq | hp
    · rw [heq]
    · exact h p hp

theorem has_addPort {ports : Dict String} {k : String} (port : String)
    (h : has ports k) : has (addPort ports port) k = true := by
  unfold NetMap.addPort
  split
  · exact h
  · exact (has_set _ _ _ _).mpr (.inr h)

theorem has_addPort_self (ports : Dict String) {port : String} (h : port ≠ "Unknown") :
    has (addPort ports port) (normalizeIface port) = true := by
  unfold NetMap.addPort
  rw [if_neg h]
  exact (has_set _ _ _ _).mpr (.inl rfl)

section Adding

variable {b : Bundle} (ip localPort remotePort localPc remotePc : String)

@[simp] theorem source_add :
    (b.add ip localPort remotePort localPc remotePc).source = b.source := by
  unfold Bundle.add
  dsimp only
  split
  · rfl
  · rfl

@[simp] theorem target_add :
    (b.add ip localPort remotePort localPc remotePc).target = b.target := by
  unfold Bundle.add
  dsimp only
  split
  · rfl
  · rfl

theorem portsAt_add (x : String) : (b.add ip localPort remotePort localPc remotePc).portsAt x =
    if x = b.source ↔ ip = b.source then addPort (b.portsAt x) localPort else b.portsAt x := by
  unfold Bundle.portsAt
  rw [source_add]
  unfold Bundle.add
  dsimp only
  by_cases hip : ip = b.source
  · rw [if_pos hip]
    by_cases hx : x = b.source
    · rw [if_pos hx, if_pos hx, if_pos (iff_of_true hx hip)]
    · rw [if_neg hx, if_neg hx, if_neg fun h => hx (h.mpr hip)]
  · rw [if_neg hip]
    by_cases hx : x = b.source
    · rw [if_pos hx, if_pos hx, if_neg fun h => hip (h.mp hx)]
    · rw [if_neg hx, if_neg hx, if_pos (iff_of_false hx hip)]

end Adding

/-- What is gathered: every link is of announcements between its two ends, and every announcement
has a link between its two ends that has its port. -/
structure Gathered (links : List ((String × String) × Bundle))
    (done : List ((String × Neighbor) × String)) : Prop where
  keys : (links.map Prod.fst).Nodup
  link : ∀ p ∈ links, p.1 = linkKey p.2.source p.2.target ∧
    ∃ a ∈ done, a.1.1 = p.2.source ∧ a.2 = p.2.target
  ports : ∀ p ∈ links, Named p.2.srcPorts ∧ Named p.2.tgtPorts
  announcement : ∀ a ∈ done, ∃ b, find links (linkKey a.1.1 a.2) = some b ∧
    (a.1.2.localPort ≠ "Unknown" →
      has (b.portsAt a.1.1) (normalizeIface a.1.2.localPort) = true)

theorem gathered_nil : Gathered [] [] where
  keys := List.nodup_nil
  link _ h := nomatch h
  ports _ h := nomatch h
  announcement _ h := nomatch h

theorem named_add {b : Bundle} (h : Named b.srcPorts ∧ Named b.tgtPorts)
    (ip localPort remotePort localPc remotePc : String) :
    Named (b.add ip localPort remotePort localPc remotePc).srcPorts ∧
      Named (b.add ip localPort remotePort localPc remotePc).tgtPorts := by
  unfold Bundle.add
  dsimp only
  split
  · exact ⟨h.1.addPort _, h.2⟩
  · exact ⟨h.1, h.2.addPort _⟩

theorem Gathered.announce {done : List ((String × Neighbor) × String)}
    (h : Gathered d.links done) : Gathered (announce c w d e).links
      (done ++ [(e, w.target d e.1 e.2)]) := by
  generalize ht : w.target d e.1 e.2 = t
  generalize hb : (find d.links (linkKey e.1 t)).getD { source := e.1, target := t } = b
  have hlinks : (NetMap.announce c w d e).links = put d.links (linkKey e.1 t)
      (b.add e.1 e.2.localPort e.2.remotePort (w.aggregate e.1 e.2.localPort)
        (w.aggregate t e.2.remotePort)) := by
    rw [← hb, ← ht]
    rfl
  have hfound : find d.links (linkKey e.1 t) = some b ∨ b = { source := e.1, target := t } := by
    rw [← hb]
    cases find d.links (linkKey e.1 t) with
    | none => exact .inr rfl
    | some b => exact .inl rfl
  have hends : linkKey e.1 t = linkKey b.source b.target ∧
      ((∃ a ∈ done, a.1.1 = b.source ∧ a.2 = b.target) ∨ (e.1 = b.source ∧ t = b.target)) := by
    rcases hfound with hfound | rfl
    · obtain ⟨hkey, ha⟩ := h.link _ (mem_of_find hfound)
      exact ⟨hkey, .inl ha⟩
    · exact ⟨rfl, .inr ⟨rfl, rfl⟩⟩
  have hnamed : Named b.srcPorts ∧ Named b.tgtPorts := by
    rcases hfound with hfound | rfl
    · exact h.ports _ (mem_of_find hfound)
    · exact ⟨fun p hp => (nomatch hp), fun p hp => (nomatch hp)⟩
  rw [hlinks]
  refine ⟨nodup_put h.keys _ _, fun p hp => ?_, fun p hp => ?_, fun a ha => ?_⟩
  · rcases mem_put hp with rfl | hp
    · refine ⟨by rw [source_add, target_add]; exact hends.1, ?_⟩
      rw [source_add, target_add]
      rcases hends.2 with ⟨a, ha, hsource, htarget⟩ | ⟨hsource, htarget⟩
      · exact ⟨a, List.mem_append_left _ ha, hsource, htarget⟩
      · exact ⟨(e, t), List.mem_append_right _ (List.mem_singleton_self _), hsource, htarget⟩
    · obtain ⟨hkey, a, ha, hsource, htarget⟩ := h.link p hp
      exact ⟨hkey, a, List.mem_append_left _ ha, hsource, htarget⟩
  · rcases mem_put hp with rfl | hp
    · exact named_add hnamed _ _ _ _ _
    · exact h.ports p hp
  · rw [find_put]
    rcases List.mem_append.mp ha with ha | ha
    · obtain ⟨b', hb', hport⟩ := h.announcement a ha
      by_cases hsame : linkKey e.1 t = linkKey a.1.1 a.2
      · rw [if_pos hsame]
        have heq : b' = b := by
          rw [← hb, hsame, hb']
          rfl
        refine ⟨_, rfl, fun hknown => ?_⟩
        rw [portsAt_add, ← heq]
        split
        · exact has_addPort _ (hport hknown)
        · exact hport hknown
      · rw [if_neg hsame]
        exact ⟨b', hb', hport⟩
    · obtain rfl := List.mem_singleton.mp ha
      rw [if_pos rfl]
      refine ⟨_, rfl, fun hknown => ?_⟩
      rw [portsAt_add, if_pos Iff.rfl]
      exact has_addPort_self _ hknown

/-- What is gathered after some announcements. -/
theorem gathered_foldl {done : List ((String × Neighbor) × String)} (h : Gathered d.links done)
    (es : List (String × Neighbor)) :
    Gathered (es.foldl (announce c w) d).links (done ++ resolved c w d es) := by
  induction es generalizing d done with
  | nil =>
    rw [resolved, List.append_nil]
    exact h
  | cons e es ih =>
    have hstep := ih (h.announce (c := c) (w := w) (e := e))
    rw [List.append_assoc] at hstep
    exact hstep

theorem gathered_drawing (c : Classifiers) (w : Sources) :
    Gathered (drawing c w).links (drawn c w) :=
  gathered_foldl (d := Drawing.initial c w) gathered_nil w.announcements

/-! ## Nodes -/

/-- Every node is under its name, and every device of the inventory has a node of its group. -/
structure Placed (w : Sources) (nodes : Dict Node) : Prop where
  id : ∀ p ∈ nodes, p.2.id = p.1
  group : ∀ p ∈ nodes, ∀ host, get? w.ipToDevice p.1 = some host → p.2.group = host.group
  inventory : ∀ x, has w.ipToDevice x = true → has nodes x = true

theorem Placed.set {nodes : Dict Node} (h : Placed w nodes) {k : String} {node : Node}
    (hid : node.id = k)
    (hgroup : ∀ host, get? w.ipToDevice k = some host → node.group = host.group) :
    Placed w (set nodes k node) where
  id p hp := by
    rcases mem_set hp with rfl | hp
    · exact hid
    · exact h.id p hp
  group p hp := by
    rcases mem_set hp with rfl | hp
    · exact hgroup
    · exact h.group p hp
  inventory x hx := (has_set _ _ _ _).mpr (.inr (h.inventory x hx))

theorem placed_initial (c : Classifiers) (w : Sources) :
    Placed w (Drawing.initial c w).nodes where
  id p hp := by
    obtain ⟨q, -, rfl⟩ := List.mem_map.mp hp
    rfl
  group p hp host hhost := by
    obtain ⟨q, hq, rfl⟩ := List.mem_map.mp hp
    have hfound := (unique_ipToDevice w).mem_iff.mp hq
    rw [← Option.some.inj (hfound.symm.trans hhost)]
    rfl
  inventory _ hx := has_initial.mpr hx

theorem Placed.announce (h : Placed w d.nodes) : Placed w (announce c w d e).nodes := by
  unfold NetMap.announce
  dsimp only
  cases hnode : get? d.nodes (w.target d e.1 e.2) with
  | some node =>
    have hmem := mem_of_get? hnode
    exact h.set (h.id _ hmem) (h.group _ hmem)
  | none =>
    refine h.set rfl fun host hhost => ?_
    have hhas := h.inventory _ (Option.isSome_iff_exists.mpr ⟨host, hhost⟩)
    unfold has at hhas
    rw [hnode] at hhas
    cases hhas

theorem placed_drawing (c : Classifiers) (w : Sources) : Placed w (drawing c w).nodes := by
  have hrun : ∀ (es : List (String × Neighbor)) (d : Drawing), Placed w d.nodes →
      Placed w (es.foldl (announce c w) d).nodes := by
    intro es
    induction es with
    | nil => exact fun d h => h
    | cons e es ih => exact fun d h => ih _ h.announce
  exact hrun _ _ (placed_initial c w)

theorem set_of_get? {α : Type} {l : Dict α} {k : String} {v : α} (h : get? l k = some v)
    (u : α) : (set l k u).map Prod.fst = l.map Prod.fst := by
  rw [keys_set, if_pos (List.mem_map_of_mem (f := Prod.fst) (mem_of_get? h))]

theorem foldl_addFact (facts : Dict String) (ports : List String) (node : Node) :
    (ports.foldl (addFact facts) node).id = node.id ∧
      (ports.foldl (addFact facts) node).group = node.group := by
  induction ports generalizing node with
  | nil => exact ⟨rfl, rfl⟩
  | cons port ports ih =>
    obtain ⟨hid, hgroup⟩ := ih (addFact facts node port)
    rw [List.foldl_cons, hid, hgroup]
    unfold addFact
    split
    · exact ⟨rfl, rfl⟩
    · exact ⟨rfl, rfl⟩

theorem addFacts_spec {nodes : Dict Node} (h : Placed w nodes) (ports : String × List String) :
    Placed w (w.addFacts nodes ports) ∧
      (w.addFacts nodes ports).map Prod.fst = nodes.map Prod.fst := by
  unfold Sources.addFacts
  split
  · next p node _ hnode =>
    have hmem := mem_of_get? hnode
    obtain ⟨hid, hgroup⟩ := foldl_addFact p.backup.portFacts ports.2 node
    refine ⟨h.set ?_ fun host hhost => ?_, set_of_get? hnode _⟩
    · rw [hid]
      exact h.id _ hmem
    · rw [hgroup]
      exact h.group _ hmem host hhost
  · exact ⟨h, rfl⟩

theorem placed_foldl_addFacts (ends : List (String × List String)) {nodes : Dict Node}
    (h : Placed w nodes) : Placed w (ends.foldl w.addFacts nodes) ∧
      (ends.foldl w.addFacts nodes).map Prod.fst = nodes.map Prod.fst := by
  induction ends generalizing nodes with
  | nil => exact ⟨h, rfl⟩
  | cons e ends ih =>
    obtain ⟨hplaced, hkeys⟩ := addFacts_spec h e
    obtain ⟨hplaced', hkeys'⟩ := ih hplaced
    exact ⟨hplaced', hkeys'.trans hkeys⟩

theorem fullMap_nodes (c : Classifiers) (w : Sources) : ∃ nodes, Placed w nodes ∧
    nodes.map Prod.fst = (drawing c w).nodes.map Prod.fst ∧
      (fullMap c w).nodes = nodes.map fun p => w.override p.1 p.2 := by
  obtain ⟨hplaced, hkeys⟩ := placed_foldl_addFacts _ (placed_drawing c w)
  exact ⟨_, hplaced, hkeys, rfl⟩

theorem override_id (id : String) (node : Node) : (w.override id node).id = node.id := by
  unfold Sources.override
  split
  · rfl
  · rfl

theorem override_group (id : String) (node : Node) : (w.override id node).group = node.group := by
  unfold Sources.override
  split
  · rfl
  · rfl

theorem exists_node_iff :
    (∃ n ∈ (fullMap c w).nodes, n.id = x) ↔ has (drawing c w).nodes x = true := by
  obtain ⟨nodes, hplaced, hkeys, hnodes⟩ := fullMap_nodes c w
  have hmem : (∃ n ∈ (fullMap c w).nodes, n.id = x) ↔ x ∈ nodes.map Prod.fst := by
    rw [hnodes]
    constructor
    · rintro ⟨n, hn, rfl⟩
      obtain ⟨p, hp, rfl⟩ := List.mem_map.mp hn
      rw [override_id, hplaced.id p hp]
      exact List.mem_map_of_mem hp
    · intro hx
      obtain ⟨p, hp, rfl⟩ := List.mem_map.mp hx
      exact ⟨_, List.mem_map_of_mem hp, by rw [override_id, hplaced.id p hp]⟩
  rw [hmem, hkeys]
  constructor
  · exact fun h => Option.isSome_iff_exists.mpr (get?_of_mem_keys h)
  · intro h
    obtain ⟨node, hnode⟩ := Option.isSome_iff_exists.mp h
    exact List.mem_map_of_mem (f := Prod.fst) (mem_of_get? hnode)

theorem group_of_node {n : Node} (hn : n ∈ (fullMap c w).nodes)
    (h : has w.ipToDevice n.id) : n.group = w.column n.id Host.group := by
  obtain ⟨nodes, hplaced, -, hnodes⟩ := fullMap_nodes c w
  rw [hnodes] at hn
  obtain ⟨p, hp, rfl⟩ := List.mem_map.mp hn
  rw [override_id, hplaced.id p hp] at h ⊢
  obtain ⟨host, hhost⟩ := Option.isSome_iff_exists.mp h
  rw [override_group, hplaced.group p hp host hhost]
  unfold Sources.column
  rw [hhost]
  rfl

/-! ## Intact maps -/

/-- A link joins two nodes, whichever of them is its source. -/
def Link.Joins (l : Link) (a b : String) : Prop :=
  (l.source = a ∧ l.target = b) ∨ (l.source = b ∧ l.target = a)

def Link.portsOf (l : Link) (ip : String) : List String :=
  if ip = l.source then l.localPorts else l.remotePorts

def Sources.Shows (w : Sources) (groupFilter : Option String) (ip : String) : Prop :=
  ∀ group, groupFilter = some group → group ≠ "" → group ≠ "all" → w.column ip Host.group = group

/-- The links of a map join two of its nodes, one link for two nodes.  Every announcement of a
device of the inventory that the filter shows has one link, with its port; and none under a name
that several devices have leads back. -/
structure Intact (c : Classifiers) (w : Sources) (groupFilter : Option String) : Prop where
  ends : ∀ l ∈ (generateNetworkMap c w groupFilter).links, l.source ≠ l.target ∧
    (∃ n ∈ (generateNetworkMap c w groupFilter).nodes, n.id = l.source) ∧
      ∃ n ∈ (generateNetworkMap c w groupFilter).nodes, n.id = l.target
  single : (generateNetworkMap c w groupFilter).links.Pairwise fun l l' =>
    ¬ l'.Joins l.source l.target
  announced : ∀ a ∈ drawn c w, has w.ipToDevice a.1.1 = true → w.Shows groupFilter a.1.1 →
    ∃ l ∈ (generateNetworkMap c w groupFilter).links, l.Joins a.1.1 a.2 ∧
      (a.1.2.localPort ≠ "Unknown" →
        ∃ port ∈ l.portsOf a.1.1, normalizeIface port = normalizeIface a.1.2.localPort) ∧
      ∀ l' ∈ (generateNetworkMap c w groupFilter).links, l'.Joins a.1.1 a.2 → l' = l
  shared : ∀ a ∈ drawn c w, 1 < (w.meant a.1.2).length → a.2 ≠ a.1.1

/-- An announcement leads back to its own device, after some other announcements: by a name that it
owns and at most one other device has; or, under a name that leads nowhere, by its address, which is
drawn already or is all that is known. -/
def Sources.LeadsBack (w : Sources) (pre : List (String × Neighbor)) (e : String × Neighbor) :
    Prop :=
  ((w.others e.1 e.2).length ≤ 1 ∧ w.ownerOf e.2 = e.1) ∨
    (w.leads e.1 e.2 = "" ∧ e.2.neighborIp = e.1 ∧
      ((has w.ipToDevice e.1 = true ∨ ∃ e' ∈ pre, w.Direct e' e.1) ∨ e.2.hasName = false))

/-- Who announces is in the inventory or announced, and no announcement leads back. -/
structure Sources.Straight (w : Sources) : Prop where
  known : ∀ e ∈ w.announcements,
    has w.ipToDevice e.1 = true ∨ ∃ e' ∈ w.announcements, w.Direct e' e.1
  away : ∀ pre e post, w.announcements = pre ++ e :: post → ¬ w.LeadsBack pre e

theorem joins_iff {b : Bundle} {y : String} :
    b.link.Joins x y ↔ linkKey b.source b.target = linkKey x y := by
  rw [linkKey_eq_iff]
  rfl

theorem exists_portsOf {b : Bundle} (h : Named b.srcPorts ∧ Named b.tgtPorts) {ip k : String}
    (hport : has (b.portsAt ip) k) :
    ∃ port ∈ b.link.portsOf ip, normalizeIface port = k := by
  obtain ⟨port, hget⟩ := Option.isSome_iff_exists.mp hport
  have hmem := mem_of_get? hget
  unfold Bundle.portsAt at hmem
  have hsource : b.link.source = b.source := rfl
  unfold Link.portsOf
  rw [hsource]
  split at hmem
  · next hip =>
    have hlist : b.link.localPorts = b.srcPorts.map Prod.snd := by
      show (if b.srcPorts = [] then b.srcGuess else b.srcPorts).map Prod.snd = _
      rw [if_neg (List.ne_nil_of_mem hmem)]
    rw [if_pos hip, hlist]
    exact ⟨port, List.mem_map_of_mem (f := Prod.snd) hmem, (h.1 _ hmem).symm⟩
  · next hip =>
    have hlist : b.link.remotePorts = b.tgtPorts.map Prod.snd := by
      show (if b.tgtPorts = [] then b.tgtGuess else b.tgtPorts).map Prod.snd = _
      rw [if_neg (List.ne_nil_of_mem hmem)]
    rw [if_neg hip, hlist]
    exact ⟨port, List.mem_map_of_mem (f := Prod.snd) hmem, (h.2 _ hmem).symm⟩

theorem fullMap_links (c : Classifiers) (w : Sources) :
    (fullMap c w).links = (drawing c w).links.map fun p => p.2.link := rfl

theorem fullMap_single (c : Classifiers) (w : Sources) :
    (fullMap c w).links.Pairwise fun l l' => ¬ l'.Joins l.source l.target := by
  have hgathered := gathered_drawing c w
  rw [fullMap_links, List.pairwise_map]
  refine (List.pairwise_map.mp hgathered.keys).imp_of_mem fun {p q} hp hq hne hjoins => hne ?_
  rw [(hgathered.link p hp).1, (hgathered.link q hq).1]
  exact (joins_iff.mp hjoins).symm

variable {l : Link}

theorem eq_of_joins {l' : Link} {y : String} (hl : l ∈ (fullMap c w).links)
    (hl' : l' ∈ (fullMap c w).links) (h : l.Joins x y) (h' : l'.Joins x y) : l = l' := by
  have hgathered := gathered_drawing c w
  rw [fullMap_links] at hl hl'
  obtain ⟨p, hp, rfl⟩ := List.mem_map.mp hl
  obtain ⟨q, hq, rfl⟩ := List.mem_map.mp hl'
  have hkey : p.1 = q.1 := by
    rw [(hgathered.link p hp).1, (hgathered.link q hq).1]
    exact (joins_iff.mp h).trans (joins_iff.mp h').symm
  rw [List.inj_on_of_nodup_map hgathered.keys hp hq hkey]

variable {a : (String × Neighbor) × String}

theorem exists_link (ha : a ∈ drawn c w) :
    ∃ l ∈ (fullMap c w).links, l.Joins a.1.1 a.2 ∧ (a.1.2.localPort ≠ "Unknown" →
      ∃ port ∈ l.portsOf a.1.1, normalizeIface port = normalizeIface a.1.2.localPort) := by
  have hgathered := gathered_drawing c w
  obtain ⟨b, hb, hport⟩ := hgathered.announcement a ha
  have hmem := mem_of_find hb
  refine ⟨b.link, List.mem_map_of_mem (f := fun p => p.2.link) hmem, ?_,
    fun hknown => exists_portsOf (hgathered.ports _ hmem) (hport hknown)⟩
  exact joins_iff.mpr (hgathered.link _ hmem).1.symm

theorem exists_drawn (hl : l ∈ (fullMap c w).links) :
    ∃ a ∈ drawn c w, l.source = a.1.1 ∧ l.target = a.2 := by
  rw [fullMap_links] at hl
  obtain ⟨p, hp, rfl⟩ := List.mem_map.mp hl
  obtain ⟨-, a, ha, hsource, htarget⟩ := (gathered_drawing c w).link p hp
  exact ⟨a, ha, hsource.symm, htarget.symm⟩

theorem has_target (ha : a ∈ drawn c w) : has (drawing c w).nodes a.2 = true := by
  obtain ⟨pre, post, hes, ht⟩ := mem_resolved ha
  have hkeep : ∀ (es : List (String × Neighbor)) (d : Drawing) (x : String),
      has d.nodes x = true → has (es.foldl (announce c w) d).nodes x = true := by
    intro es
    induction es with
    | nil => exact fun d x h => h
    | cons e es ih => exact fun d x h => ih _ _ (has_nodes_announce.mpr (.inr h))
  unfold drawing
  rw [hes, List.foldl_append, List.foldl_cons]
  exact hkeep _ _ _ (has_nodes_announce.mpr (.inl ht))

theorem has_announcer_iff (he : e ∈ w.announcements) : has (drawing c w).nodes e.1 = true ↔
    has w.ipToDevice e.1 = true ∨ ∃ e' ∈ w.announcements, w.Direct e' e.1 := by
  unfold drawing
  rw [has_nodes_foldl (isAddress_of_announcements he), has_initial]

theorem leadsBack_iff {pre post : List (String × Neighbor)}
    (hes : w.announcements = pre ++ e :: post) :
    w.target (pre.foldl (announce c w) (Drawing.initial c w)) e.1 e.2 = e.1 ↔
      w.LeadsBack pre e := by
  have haddress : IsAddress e.1 := isAddress_of_announcements (w := w) (by
    rw [hes]
    exact List.mem_append_right _ List.mem_cons_self)
  rw [target_eq_iff haddress, has_nodes_foldl haddress, has_initial, leads_self_iff w haddress.1]
  rfl

theorem Sources.Straight.shared (h : w.Straight) (ha : a ∈ drawn c w) : a.2 ≠ a.1.1 := by
  obtain ⟨pre, post, hes, ht⟩ := mem_resolved ha
  rw [ht, Ne, leadsBack_iff hes]
  exact h.away pre a.1 post hes

theorem Sources.Straight.ends (h : w.Straight) (hl : l ∈ (fullMap c w).links) :
    l.source ≠ l.target ∧ (∃ n ∈ (fullMap c w).nodes, n.id = l.source) ∧
      ∃ n ∈ (fullMap c w).nodes, n.id = l.target := by
  obtain ⟨a, ha, hsource, htarget⟩ := exists_drawn hl
  obtain ⟨pre, post, hes, -⟩ := mem_resolved ha
  have hmem : a.1 ∈ w.announcements := by
    rw [hes]
    exact List.mem_append_right _ List.mem_cons_self
  rw [hsource, htarget, exists_node_iff, exists_node_iff]
  exact ⟨(h.shared ha).symm, (has_announcer_iff hmem).mpr (h.known _ hmem), has_target ha⟩

variable {m : NetworkMap} {group : String}

theorem mem_links_ofGroup : l ∈ (m.ofGroup group).links → l ∈ m.links :=
  fun h => (List.mem_filter.mp h).1

theorem mem_ofGroup_of_end (hl : l ∈ m.links)
    {n : Node} (hn : n ∈ m.nodes) (hgroup : n.group = group)
    (hend : n.id = l.source ∨ n.id = l.target) : l ∈ (m.ofGroup group).links := by
  have hin : n.id ∈ (m.nodes.filter fun n => n.group = group).map Node.id :=
    List.mem_map_of_mem (List.mem_filter.mpr ⟨hn, decide_eq_true hgroup⟩)
  refine List.mem_filter.mpr ⟨hl, ?_⟩
  rw [Bool.and_eq_true, Bool.or_eq_true, Bool.or_eq_true, decide_eq_true_eq, decide_eq_true_eq,
    decide_eq_true_eq, decide_eq_true_eq]
  rcases hend with hsource | htarget
  · rw [hsource] at hin
    refine ⟨.inl hin, .inr (List.mem_flatMap.mpr ⟨l, hl, ?_⟩)⟩
    rw [if_pos hin]
    exact List.mem_append_left _ (List.mem_singleton_self _)
  · rw [htarget] at hin
    refine ⟨.inr (List.mem_flatMap.mpr ⟨l, hl, ?_⟩), .inl hin⟩
    rw [if_pos hin]
    exact List.mem_append_right _ (List.mem_singleton_self _)

theorem exists_node_ofGroup (hl : l ∈ (m.ofGroup group).links) (hx : x = l.source ∨ x = l.target)
    (h : ∃ n ∈ m.nodes, n.id = x) : ∃ n ∈ (m.ofGroup group).nodes, n.id = x := by
  obtain ⟨n, hn, rfl⟩ := h
  have hkept := (List.mem_filter.mp hl).2
  rw [Bool.and_eq_true, Bool.or_eq_true, Bool.or_eq_true, decide_eq_true_eq, decide_eq_true_eq,
    decide_eq_true_eq, decide_eq_true_eq] at hkept
  have hboth : n.id ∈ (m.nodes.filter fun n => n.group = group).map Node.id ∨
      n.id ∈ m.links.flatMap fun l =>
        (if l.source ∈ (m.nodes.filter fun n => n.group = group).map Node.id then [l.target]
          else []) ++
        if l.target ∈ (m.nodes.filter fun n => n.group = group).map Node.id then [l.source]
          else [] := by
    rcases hx with hx | hx
    · rw [hx]
      exact hkept.1
    · rw [hx]
      exact hkept.2
  by_cases hin : n.id ∈ (m.nodes.filter fun n => n.group = group).map Node.id
  · exact ⟨n, List.mem_filterMap.mpr ⟨n, hn, if_pos hin⟩, rfl⟩
  · refine ⟨{ n with isBoundary := true }, List.mem_filterMap.mpr ⟨n, hn, ?_⟩, rfl⟩
    rw [if_neg hin, if_pos (hboth.resolve_left hin)]

theorem Sources.Straight.intact (h : w.Straight) (groupFilter : Option String) :
    Intact c w groupFilter := by
  have hfull : (generateNetworkMap c w groupFilter = fullMap c w) ∨
      ∃ group, groupFilter = some group ∧ group ≠ "" ∧ group ≠ "all" ∧
        generateNetworkMap c w groupFilter = (fullMap c w).ofGroup group := by
    unfold generateNetworkMap
    cases groupFilter with
    | none => exact .inl rfl
    | some group =>
      dsimp only
      split
      · exact .inl rfl
      · next hgroup =>
        obtain ⟨hempty, hall⟩ := not_or.mp hgroup
        exact .inr ⟨group, rfl, hempty, hall, rfl⟩
  rcases hfull with hmap | ⟨group, hfilter, hempty, hall, hmap⟩
  · refine ⟨?_, ?_, ?_, fun a ha _ => h.shared ha⟩
    · rw [hmap]
      exact fun l hl => h.ends hl
    · rw [hmap]
      exact fullMap_single c w
    · rw [hmap]
      intro a ha _ _
      obtain ⟨l, hl, hjoins, hport⟩ := exists_link ha
      exact ⟨l, hl, hjoins, hport, fun l' hl' hjoins' => eq_of_joins hl' hl hjoins' hjoins⟩
  · refine ⟨?_, ?_, ?_, fun a ha _ => h.shared ha⟩
    · rw [hmap]
      intro l hl
      obtain ⟨hne, hsource, htarget⟩ := h.ends (mem_links_ofGroup hl)
      exact ⟨hne, exists_node_ofGroup hl (.inl rfl) hsource,
        exists_node_ofGroup hl (.inr rfl) htarget⟩
    · rw [hmap]
      exact (fullMap_single c w).sublist List.filter_sublist
    · rw [hmap]
      intro a ha hdevice hshows
      obtain ⟨l, hl, hjoins, hport⟩ := exists_link ha
      have hnode : has (drawing c w).nodes a.1.1 = true :=
        (placed_drawing c w).inventory _ hdevice
      obtain ⟨n, hn, hid⟩ := exists_node_iff.mpr hnode
      have hgroup : n.group = group := by
        rw [group_of_node hn (by rw [hid]; exact hdevice), hid]
        exact hshows group hfilter hempty hall
      have hend : n.id = l.source ∨ n.id = l.target := by
        rw [hid]
        exact hjoins.imp (fun h => h.1.symm) fun h => h.2.symm
      exact ⟨l, mem_ofGroup_of_end hl hn hgroup hend, hjoins, hport,
        fun l' hl' hjoins' => eq_of_joins (mem_links_ofGroup hl') hl hjoins' hjoins⟩

/-- Whatever is announced, two nodes have one link in the map of any group, and in the map of all
groups every announcement has its link with its port. -/
theorem generateNetworkMap_single (c : Classifiers) (w : Sources) :
    (∀ groupFilter, (generateNetworkMap c w groupFilter).links.Pairwise fun l l' =>
      ¬ l'.Joins l.source l.target) ∧
    ∀ a ∈ drawn c w, ∃ l ∈ (generateNetworkMap c w none).links, l.Joins a.1.1 a.2 ∧
      (a.1.2.localPort ≠ "Unknown" →
        ∃ port ∈ l.portsOf a.1.1, normalizeIface port = normalizeIface a.1.2.localPort) ∧
      ∀ l' ∈ (generateNetworkMap c w none).links, l'.Joins a.1.1 a.2 → l' = l := by
  refine ⟨fun groupFilter => ?_, fun a ha => ?_⟩
  · unfold generateNetworkMap
    cases groupFilter with
    | none => exact fullMap_single c w
    | some group =>
      dsimp only
      split
      · exact fullMap_single c w
      · exact (fullMap_single c w).sublist List.filter_sublist
  · obtain ⟨l, hl, hjoins, hport⟩ := exists_link ha
    exact ⟨l, hl, hjoins, hport, fun l' hl' hjoins' => eq_of_joins hl' hl hjoins' hjoins⟩

/-- The maps of all groups are intact exactly where who announces is known, and no announcement
leads back. -/
theorem intact_iff (c : Classifiers) (w : Sources) :
    (∀ groupFilter, Intact c w groupFilter) ↔ w.Straight := by
  refine ⟨fun h => ?_, fun h groupFilter => h.intact groupFilter⟩
  have hends : ∀ a ∈ drawn c w, a.1.1 ≠ a.2 ∧ has (drawing c w).nodes a.1.1 = true := by
    intro a ha
    obtain ⟨l, hl, hjoins, -⟩ := exists_link ha
    obtain ⟨hne, hsource, htarget⟩ := (h none).ends l hl
    rcases hjoins with ⟨hs, ht⟩ | ⟨hs, ht⟩
    · rw [hs, ht] at hne
      rw [hs] at hsource
      exact ⟨hne, exists_node_iff.mp hsource⟩
    · rw [hs, ht] at hne
      rw [ht] at htarget
      exact ⟨hne.symm, exists_node_iff.mp htarget⟩
  constructor
  · intro e he
    obtain ⟨pre, post, hes⟩ := List.append_of_mem he
    have ha : (e, w.target (pre.foldl (announce c w) (Drawing.initial c w)) e.1 e.2) ∈
        drawn c w := by
      unfold drawn
      rw [hes]
      exact resolved_of_append
    exact (has_announcer_iff he).mp (hends _ ha).2
  · intro pre e post hes hback
    have ha : (e, w.target (pre.foldl (announce c w) (Drawing.initial c w)) e.1 e.2) ∈
        drawn c w := by
      unfold drawn
      rw [hes]
      exact resolved_of_append
    exact (hends _ ha).1 ((leadsBack_iff hes).mpr hback).symm

/-! ## One name and an old backup -/

/-- Classifiers that tell nothing. -/
def plainClassifiers : Classifiers := ⟨fun _ _ _ _ _ => "switch", fun _ _ _ => "", fun p _ => p⟩

/-- A backup of a switch of `acme`, with its neighbours. -/
def switchFile (name ip hostname : String) (neighbors : List Neighbor) : File where
  dir := ["acme", "cisco"]
  name := name ++ "-" ++ ip ++ ".txt"
  content := some { hostname := hostname, neighbors := neighbors }

/-- The switches of `acme` with their backups, where nothing else is known. -/
def switches (ips : List String) (valid : ∀ ip ∈ ips, validIp ip = true) (walk : List File) :
    Sources where
  rows := ips.map fun ip => Probes.plainHost ip "acme" "central" "hq"
  valid d hd := by
    obtain ⟨ip, hip, rfl⟩ := List.mem_map.mp hd
    exact valid ip hip
  walk := walk
  versions := []
  assignments := []
  portMacTable _ := []
  ownMacs _ := []

/-- Two switches with one name, which announce each other. -/
def namesakes : Sources :=
  switches ["10.0.0.1", "10.0.0.2"] (by decide)
    [switchFile "SW01" "10.0.0.1" "SW01" [{ neighborId := "SW01", localPort := "Gi1/0/1" }],
      switchFile "SW01" "10.0.0.2" "SW01" [{ neighborId := "SW01", localPort := "Gi1/0/2" }]]

/-- A switch, and the backup of one that is not in the inventory any more. -/
def oldBackup : Sources :=
  switches ["10.0.0.1"] (by decide)
    [switchFile "SW01" "10.0.0.1" "SW01" [],
      switchFile "SW09" "10.0.0.9" "SW09" [{ neighborId := "SW01", localPort := "Gi1/0/1" }]]

/-- The second of two switches with one name is linked to itself, and an old backup has a link from
nowhere. -/
theorem links_astray :
    ¬ Intact plainClassifiers namesakes none ∧
      ¬ Intact plainClassifiers oldBackup (some "acme") := by
  constructor
  · intro h
    have hself : ∃ l ∈ (generateNetworkMap plainClassifiers namesakes none).links,
        l.source = l.target := by decide +kernel
    obtain ⟨l, hl, heq⟩ := hself
    exact (h.ends l hl).1 heq
  · intro h
    have hnowhere : ∃ l ∈ (generateNetworkMap plainClassifiers oldBackup (some "acme")).links,
        ∀ n ∈ (generateNetworkMap plainClassifiers oldBackup (some "acme")).nodes,
          n.id ≠ l.source := by decide
    obtain ⟨l, hl, hnone⟩ := hnowhere
    obtain ⟨n, hn, hid⟩ := (h.ends l hl).2.1
    exact hnone n hn hid

end SentinelNet.NetMap
