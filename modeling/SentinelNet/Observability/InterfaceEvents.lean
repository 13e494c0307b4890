import SentinelNet.Observability.InterfaceNames

/-!
# Events of interfaces

What `_from_api_observations` makes of two snapshots of interfaces.

* `named_iff`: when every event names its interface.
-/

namespace SentinelNet.Observability

open PyDict PyText

/-! ## Snapshots of interfaces -/

/-- The `metrics` of a snapshot: the counters of each interface, under its name. -/
def metricsObject (counters : Dict (Dict Json)) : Dict Json :=
  assign [] (counters.flatMap fun p => p.2.map fun q => (p.1 ++ "." ++ q.1, q.2))

/-- A snapshot of an interfaces kind as the pollers write it: `results` maps the names of the
interfaces to flat objects, `metrics` has the counters of these interfaces, and the names of other
members are words. -/
structure InterfacesSnapshot where
  first : Dict Json
  ports : Dict (Dict Json)
  counters : Option (Dict (Dict Json))
  last : Dict Json
  words : ∀ p ∈ first ++ last, p.1 ≠ "" ∧ p.1 ≠ "results" ∧ p.1 ≠ "metrics" ∧ '.' ∉ p.1.toList
  named : ∀ p ∈ ports, p.1 ≠ ""
  unique : Unique ports
  flat : ∀ p ∈ ports, Unique p.2 ∧ ∀ q ∈ p.2, q.2.isScalar = true
  counted : ∀ c ∈ counters, Unique c ∧ ∀ p ∈ c, p.1 ∈ ports.map Prod.fst ∧ Unique p.2

namespace InterfacesSnapshot

/-- The object that is written. -/
def toJson (s : InterfacesSnapshot) : Json :=
  .obj (s.first ++ ("results", .obj (s.ports.map fun p => (p.1, .obj p.2))) ::
    (s.counters.toList.map fun c => ("metrics", .obj (metricsObject c))) ++ s.last)

def ownCounters (s : InterfacesSnapshot) (name : String) : Dict Json :=
  (((s.counters.getD []).filter fun p => p.1 = name).flatMap Prod.snd).filter fun q =>
    q.2.isNumber

/-- The paths of the fields. -/
def portLeaves (s : InterfacesSnapshot) : List (String × Json) :=
  s.ports.flatMap fun p => p.2.map fun q => (portPath p.1 q.1, q.2)

variable {s : InterfacesSnapshot} {l : String × Json}

theorem mem_portLeaves :
    l ∈ s.portLeaves ↔ ∃ p ∈ s.ports, ∃ q ∈ p.2, l = (portPath p.1 q.1, q.2) := by
  simp only [portLeaves, List.mem_flatMap, List.mem_map, eq_comm]

theorem leaves_results (s : InterfacesSnapshot) :
    leaves (.obj (s.ports.map fun p => (p.1, .obj p.2))) "results" 1 = s.portLeaves := by
  rw [leaves, if_neg (by decide), leavesMembers_eq_flatMap, List.flatMap_map, portLeaves]
  refine List.flatMap_congr fun p hp => ?_
  show leaves (.obj p.2) (childPath "results" p.1) 2 = _
  rw [leaves, if_neg (by decide), leavesMembers_eq_flatMap, ← List.flatMap_pure_eq_map]
  refine List.flatMap_congr fun q hq => ?_
  rw [leaves_of_isScalar ((s.flat p hp).2 q hq) _ (by decide), childPath_results]
  rfl

theorem mem_leaves_toJson (h : l ∈ leaves s.toJson "" 0) :
    l ∈ s.portLeaves ∨
      ∃ member : String, '.' ∉ member.toList ∧ member ≠ "results" ∧ GoesOn member l.1 := by
  rw [toJson, leaves, if_neg (by decide), leavesMembers_eq_flatMap, List.mem_flatMap] at h
  obtain ⟨kv, hkv, hl⟩ := h
  have hpath : childPath "" kv.1 = kv.1 := if_pos rfl
  rw [hpath] at hl
  have hother (hword : kv ∈ s.first ++ s.last) :
      ∃ member : String, '.' ∉ member.toList ∧ member ≠ "results" ∧ GoesOn member l.1 := by
    obtain ⟨hne, hresults, -, hdot⟩ := s.words kv hword
    exact ⟨kv.1, hdot, hresults, mem_leaves kv.2 kv.1 1 hne hl⟩
  rcases List.mem_append.mp hkv with hkv | hkv
  · rcases List.mem_append.mp hkv with hkv | hkv
    · exact Or.inr (hother (List.mem_append_left _ hkv))
    · rcases List.mem_cons.mp hkv with rfl | hkv
      · left
        rw [← leaves_results]
        exact hl
      · obtain ⟨c, -, rfl⟩ := List.mem_map.mp hkv
        exact Or.inr ⟨"metrics", by decide, by decide, mem_leaves _ "metrics" 1 (by decide) hl⟩
  · exact Or.inr (hother (List.mem_append_right _ hkv))

theorem portLeaves_subset (h : l ∈ s.portLeaves) : l ∈ leaves s.toJson "" 0 := by
  rw [toJson, leaves, if_neg (by decide), leavesMembers_eq_flatMap, List.mem_flatMap]
  refine ⟨("results", .obj (s.ports.map fun p => (p.1, .obj p.2))), by simp, ?_⟩
  show l ∈ leaves _ "results" 1
  rw [leaves_results]
  exact h

end InterfacesSnapshot

/-! ## The fields that are compared -/

/-- The snapshot has at most 400 paths, so that all of it is flattened. -/
def Small (s : InterfacesSnapshot) : Prop := (flatFields (some s.toJson)).length ≤ 400

variable {s : InterfacesSnapshot}

theorem flatFields_eq (h : Small s) :
    flatFields (some s.toJson) = assign [] (leaves s.toJson "" 0) :=
  flatten_eq_assign s.toJson "" [] 0 h

theorem unique_stableFields (h : Small s) : Unique (stableFields (some s.toJson)) := by
  rw [stableFields, flatFields_eq h]
  exact (unique_nil.assign _).filter _

variable {p : String × Json}

theorem mem_stableFields {payload : Option Json} :
    p ∈ stableFields payload ↔
      p ∈ flatFields payload ∧ startsWith p.1 "metrics." = false ∧ isVolatile p.1 = false := by
  simp [stableFields]

variable {kind name : String}

theorem exists_port_of_interfaceOf (h : Small s) (hp : p ∈ stableFields (some s.toJson))
    (hname : interfaceOf p.1 kind = some name) :
    ∃ port ∈ s.ports, ∃ q ∈ port.2, p.1 = portPath port.1 q.1 := by
  have hkey : p.1 ∈ (flatFields (some s.toJson)).map Prod.fst :=
    List.mem_map_of_mem (mem_stableFields.mp hp).1
  rw [flatFields_eq h, mem_keys_assign] at hkey
  rcases hkey with hkey | hkey
  · cases hkey
  · obtain ⟨l, hl, hlp⟩ := List.mem_map.mp hkey
    rcases InterfacesSnapshot.mem_leaves_toJson hl with hl | ⟨member, hdot, hresults, hgoes⟩
    · obtain ⟨port, hport, q, hq, rfl⟩ := InterfacesSnapshot.mem_portLeaves.mp hl
      exact ⟨port, hport, q, hq, hlp.symm⟩
    · rw [hlp] at hgoes
      rw [interfaceOf_of_goesOn hdot hresults hgoes] at hname
      simp at hname

theorem startsWith_portPath (name field : String) :
    startsWith (portPath name field) "metrics." = false := by
  simp [startsWith, portPath, List.isPrefixOf]

theorem exists_stable (h : Small s) {port : String × Dict Json}
    (hport : port ∈ s.ports) {q : String × Json} (hq : q ∈ port.2)
    (hname : isVolatile port.1 = false) (hfield : isVolatile q.1 = false) :
    ∃ p ∈ stableFields (some s.toJson), p.1 = portPath port.1 q.1 := by
  have hleaf : (portPath port.1 q.1, q.2) ∈ leaves s.toJson "" 0 :=
    InterfacesSnapshot.portLeaves_subset
      (InterfacesSnapshot.mem_portLeaves.mpr ⟨port, hport, q, hq, rfl⟩)
  have hkey : portPath port.1 q.1 ∈ (flatFields (some s.toJson)).map Prod.fst := by
    rw [flatFields_eq h, mem_keys_assign]
    exact Or.inr (List.mem_map_of_mem (f := Prod.fst) hleaf)
  obtain ⟨p, hp, hpath⟩ := List.mem_map.mp hkey
  refine ⟨p, mem_stableFields.mpr ⟨hp, ?_, ?_⟩, hpath⟩
  · rw [hpath, startsWith_portPath]
  · rw [hpath, Bool.eq_false_iff, Ne, isVolatile_portPath, hname, hfield]
    simp

variable {field : String}

theorem portPath_inj {name' field' : String} (hname : '.' ∉ name.toList)
    (hfield : '.' ∉ field.toList) (h : portPath name' field' = portPath name field) :
    name' = name ∧ field' = field := by
  have hsegs := congrArg segments h
  rw [segments_portPath, segments_portPath, segments_of_not_mem hname,
    segments_of_not_mem hfield] at hsegs
  have hboth := (List.cons.inj hsegs).2
  obtain ⟨seg, segs, hseg⟩ := List.exists_cons_of_ne_nil (segments_ne_nil name')
  obtain ⟨seg', segs', hseg'⟩ := List.exists_cons_of_ne_nil (segments_ne_nil field')
  rw [hseg, hseg'] at hboth
  cases segs with
  | nil =>
    cases segs' with
    | nil =>
      rw [← (eq_of_segments_singleton hseg).1, ← (eq_of_segments_singleton hseg').1]
      simpa using hboth
    | cons s segs' => simp at hboth
  | cons s segs => simp at hboth

theorem mem_stable_of_field {s : InterfacesSnapshot} (h : Small s) {name field : String}
    {fields : Dict Json} {v : Json} (hport : (name, fields) ∈ s.ports) (hv : (field, v) ∈ fields)
    (hdot : '.' ∉ name.toList) (hbracket : startsWith name "[" = false)
    (hname : isVolatile name = false) (hfdot : '.' ∉ field.toList)
    (hfield : isVolatile field = false) :
    (portPath name field, v) ∈ stableFields (some s.toJson) := by
  have hleaf : (portPath name field, v) ∈ leaves s.toJson "" 0 :=
    InterfacesSnapshot.portLeaves_subset
      (InterfacesSnapshot.mem_portLeaves.mpr ⟨(name, fields), hport, (field, v), hv, rfl⟩)
  have honly : ∀ l ∈ leaves s.toJson "" 0, l.1 = portPath name field → l.2 = v := by
    intro l hl hpath
    rcases InterfacesSnapshot.mem_leaves_toJson hl with hl | ⟨member, hmdot, hresults, hgoes⟩
    · obtain ⟨port, hport', q, hq, rfl⟩ := InterfacesSnapshot.mem_portLeaves.mp hl
      obtain ⟨hn, hf⟩ := portPath_inj hdot hfdot hpath
      have hsame : get? s.ports name = some port.2 := s.unique.get?_of_mem (hn ▸ hport')
      rw [s.unique.get?_of_mem hport] at hsame
      rw [← Option.some.inj hsame] at hq
      have hq' : get? fields field = some q.2 := by
        rw [← hf]
        exact (s.flat _ hport).1.get?_of_mem hq
      rw [(s.flat _ hport).1.get?_of_mem hv] at hq'
      exact (Option.some.inj hq').symm
    · rw [hpath] at hgoes
      have hnone := @interfaceOf_of_goesOn _ _ "interfaces" hmdot hresults hgoes
      rw [interfaceOf_portPath (by decide) hdot hbracket] at hnone
      simp at hnone
  refine mem_stableFields.mpr ⟨?_, startsWith_portPath _ _, ?_⟩
  · rw [flatFields_eq h]
    exact mem_of_get? (get?_assign hleaf honly [])
  · rw [Bool.eq_false_iff, Ne, isVolatile_portPath, hname, hfield]
    simp

/-! ## The interfaces that come out -/

theorem nonempty_eq_some {o : Option String} {s : String} :
    nonempty o = some s ↔ o = some s ∧ s ≠ "" := by
  cases o with
  | none => simp [nonempty]
  | some t =>
    rw [nonempty]
    split
    · next ht =>
      subst ht
      simp only [reduceCtorEq, Option.some.injEq, false_iff, not_and, not_not]
      exact Eq.symm
    · next ht =>
      rw [Option.some.injEq]
      constructor
      · rintro rfl
        exact ⟨rfl, ht⟩
      · exact fun h => h.1

variable {grouped : Dict (Dict Json)}

theorem mem_keys_groupField :
    name ∈ (groupField kind grouped p).map Prod.fst ↔
      name ∈ grouped.map Prod.fst ∨ nonempty (interfaceOf p.1 kind) = some name := by
  rw [groupField]
  rcases nonempty (interfaceOf p.1 kind) with _ | iface
  · simp
  · show name ∈ (set grouped iface _).map Prod.fst ↔ _
    rw [mem_keys_set_iff, Option.some.injEq, or_comm, eq_comm (a := name)]

theorem mem_keys_foldl_groupField {l : Dict Json} :
    name ∈ (l.foldl (groupField kind) grouped).map Prod.fst ↔
      name ∈ grouped.map Prod.fst ∨ ∃ p ∈ l, nonempty (interfaceOf p.1 kind) = some name := by
  induction l generalizing grouped with
  | nil => simp
  | cons p l ih =>
    rw [List.foldl_cons, ih, mem_keys_groupField, List.exists_mem_cons_iff, or_assoc]

theorem mem_keys_interfacesOf {payload : Option Json} (hkind : kind ∈ ifaceKinds) :
    name ∈ (interfacesOf payload kind).map Prod.fst ↔
      name ≠ "" ∧ ∃ p ∈ stableFields payload, interfaceOf p.1 kind = some name := by
  rw [interfacesOf, if_pos hkind, mem_keys_foldl_groupField]
  simp only [List.map_nil, List.not_mem_nil, false_or, nonempty_eq_some]
  constructor
  · rintro ⟨p, hp, hname, hne⟩
    exact ⟨hne, p, hp, hname⟩
  · rintro ⟨hne, p, hp, hname⟩
    exact ⟨p, hp, hname, hne⟩

theorem unique_groupField (h : Unique grouped)
    (p : String × Json) : Unique (groupField kind grouped p) := by
  rw [groupField]
  split
  · exact h.set _ _
  · exact h

theorem unique_interfacesOf (payload : Option Json) (kind : String) :
    Unique (interfacesOf payload kind) := by
  rw [interfacesOf]
  split
  · exact List.foldlRecOn _ _ unique_nil fun grouped h p _ => unique_groupField h p
  · exact unique_nil

/-! ## Measures of an interface -/

/-- The keys of the counters of an interface. -/
def counterItems (p : String × Dict Json) : Dict Json :=
  p.2.map fun q => (p.1 ++ "." ++ q.1, q.2)

theorem startsWith_counter {port counter : String} (hname : '.' ∉ name.toList)
    (hport : '.' ∉ port.toList) :
    startsWith (port ++ "." ++ counter) (name ++ ".") = true ↔ port = name := by
  rw [startsWith, List.isPrefixOf_iff_prefix]
  constructor
  · rintro ⟨rest, hrest⟩
    have htext : name ++ "." ++ String.ofList rest = port ++ "." ++ counter := by
      apply String.toList_injective
      simpa using hrest
    have hsegs := congrArg segments htext
    rw [segments_dot, segments_dot, segments_of_not_mem hname, segments_of_not_mem hport] at hsegs
    exact (List.cons.inj hsegs).1.symm
  · rintro rfl
    exact ⟨counter.toList, by simp⟩

theorem unique_counterItems {counters : Dict (Dict Json)} (hu : Unique counters)
    (hin : ∀ p ∈ counters, Unique p.2) (hdot : ∀ p ∈ counters, '.' ∉ p.1.toList) :
    Unique (counters.flatMap counterItems) := by
  induction counters with
  | nil => exact unique_nil
  | cons p counters ih =>
    obtain ⟨hp, hu⟩ := List.nodup_cons.mp hu
    have hinj : Function.Injective fun c : String => p.1 ++ "." ++ c := by
      intro c c' h
      have hlist := congrArg String.toList h
      exact String.toList_injective (by simpa using hlist)
    rw [List.flatMap_cons, PyDict.Unique, List.map_append, List.nodup_append]
    refine ⟨?_, ih hu (List.forall_mem_cons.mp hin).2
      (List.forall_mem_cons.mp hdot).2, ?_⟩
    · rw [counterItems, List.map_map]
      have hkeys := List.Nodup.map hinj (hin p List.mem_cons_self)
      rwa [List.map_map] at hkeys
    · rintro k hk k' hk' rfl
      obtain ⟨i, hi, rfl⟩ := List.mem_map.mp hk
      obtain ⟨c, -, rfl⟩ := List.mem_map.mp hi
      obtain ⟨i', hi', hkey⟩ := List.mem_map.mp hk'
      obtain ⟨p', hp', hi'⟩ := List.mem_flatMap.mp hi'
      obtain ⟨c', -, rfl⟩ := List.mem_map.mp hi'
      have hsegs := congrArg segments hkey
      rw [segments_dot, segments_dot, segments_of_not_mem (hdot p List.mem_cons_self),
        segments_of_not_mem (hdot p' (List.mem_cons_of_mem _ hp'))] at hsegs
      have hsame : p'.1 = p.1 := (List.cons.inj hsegs).1
      exact hp (hsame ▸ List.mem_map_of_mem hp')

theorem drop_counter (name counter : String) :
    String.ofList ((name ++ "." ++ counter).toList.drop (name ++ ".").length) = counter := by
  have htext : (name ++ "." ++ counter).toList = (name ++ ".").toList ++ counter.toList := by simp
  rw [htext, ← String.length_toList, List.drop_left, String.ofList_toList]

theorem ownMeasures_append (l l' : Dict Json) (name : String) :
    ownMeasures (l ++ l') name = ownMeasures l name ++ ownMeasures l' name := by
  rw [ownMeasures, List.filter_append, List.map_append]
  rfl

theorem ownMeasures_counterItems {p : String × Dict Json}
    (hname : '.' ∉ name.toList) (hp : '.' ∉ p.1.toList) :
    ownMeasures ((counterItems p).filter fun q => q.2.isNumber) name =
      if p.1 = name then p.2.filter fun q => q.2.isNumber else [] := by
  rw [ownMeasures, counterItems, List.filter_map, List.filter_map, List.map_map]
  by_cases hpn : p.1 = name
  · rw [if_pos hpn, List.filter_eq_self.mpr]
    · refine (List.map_congr_left fun q _ => ?_).trans (List.map_id _)
      exact Prod.ext (hpn ▸ drop_counter p.1 q.1) rfl
    · exact fun q _ => (startsWith_counter hname hp).mpr hpn
  · rw [if_neg hpn, List.filter_eq_nil_iff.mpr, List.map_nil]
    exact fun q _ hq => hpn ((startsWith_counter hname hp).mp hq)

theorem ownMeasures_counters {counters : Dict (Dict Json)}
    (hname : '.' ∉ name.toList) (hdot : ∀ p ∈ counters, '.' ∉ p.1.toList) :
    ownMeasures ((counters.flatMap counterItems).filter fun q => q.2.isNumber) name =
      ((counters.filter fun p => p.1 = name).flatMap Prod.snd).filter fun q => q.2.isNumber := by
  induction counters with
  | nil => rfl
  | cons p counters ih =>
    have hp := hdot p List.mem_cons_self
    rw [List.flatMap_cons, List.filter_append, ownMeasures_append,
      ownMeasures_counterItems hname hp, ih (List.forall_mem_cons.mp hdot).2]
    by_cases hpn : p.1 = name
    · rw [if_pos hpn, List.filter_cons_of_pos (by simpa using hpn), List.flatMap_cons,
        List.filter_append]
    · rw [if_neg hpn, List.filter_cons_of_neg (by simpa using hpn), List.nil_append]

theorem measured_obj (kvs : List (String × Json)) :
    measured (some (.obj kvs)) =
      match get? kvs "metrics" with
      | some (.obj metrics) => metrics.filter fun p => p.2.isNumber
      | _ => [] := rfl

theorem get?_metrics (s : InterfacesSnapshot) :
    measured (some s.toJson) =
      (s.counters.toList.flatMap metricsObject).filter fun q => q.2.isNumber := by
  have hskip (l l' : Dict Json) (hl : ∀ p ∈ l, p.1 ≠ "metrics") :
      get? (l ++ l') "metrics" = get? l' "metrics" := by
    induction l with
    | nil => rfl
    | cons p l ih =>
      obtain ⟨k, v⟩ := p
      rw [List.cons_append, get?_cons, if_neg (hl _ List.mem_cons_self).symm]
      exact ih (List.forall_mem_cons.mp hl).2
  have hfirst : ∀ p ∈ s.first, p.1 ≠ "metrics" :=
    fun p hp => (s.words p (List.mem_append_left _ hp)).2.2.1
  have hlast : ∀ p ∈ s.last, p.1 ≠ "metrics" :=
    fun p hp => (s.words p (List.mem_append_right _ hp)).2.2.1
  rw [InterfacesSnapshot.toJson, measured_obj, List.append_assoc, hskip _ _ hfirst, List.cons_append, get?_cons, if_neg (by decide)]
  cases s.counters with
  | none =>
    have hnone : get? s.last "metrics" = none := by
      have hnil := hskip s.last [] hlast
      rw [List.append_nil] at hnil
      exact hnil
    simp [hnone]
  | some c => simp [get?_cons]

theorem ownMeasures_measured (hname : '.' ∉ name.toList) (hdot : ∀ p ∈ s.ports, '.' ∉ p.1.toList) :
    ownMeasures (measured (some s.toJson)) name = s.ownCounters name := by
  rw [get?_metrics, InterfacesSnapshot.ownCounters]
  cases hc : s.counters with
  | none => rfl
  | some c =>
    obtain ⟨hu, hin⟩ := s.counted c hc
    have hcdot : ∀ p ∈ c, '.' ∉ p.1.toList := by
      intro p hp
      obtain ⟨port, hport, hpp⟩ := List.mem_map.mp (hin p hp).1
      rw [← hpp]
      exact hdot port hport
    have hobj : metricsObject c = c.flatMap counterItems :=
      assign_of_unique (d := []) (unique_counterItems hu (fun p hp => (hin p hp).2) hcdot)
    have hall : (Option.some c).toList.flatMap metricsObject = c.flatMap counterItems := by
      rw [← hobj]
      exact List.append_nil _
    rw [hall]
    exact ownMeasures_counters hname hcdot

/-! ## The events -/

/-- A name that a path gives back, and a field that is compared. -/
def Nameable (s : InterfacesSnapshot) : Prop :=
  ∀ p ∈ s.ports, '.' ∉ p.1.toList ∧ startsWith p.1 "[" = false ∧ isVolatile p.1 = false ∧
    ∃ q ∈ p.2, isVolatile q.1 = false

def link (s : InterfacesSnapshot) (name : String) : Option Json :=
  (get? s.ports name).bind fun fields => get? fields "link"

def isState (name : String) (e : Event) : Bool :=
  e.eventType = "interface.state" ∧ e.interface = some name

/-- The events name the interfaces they are about: each interface has one event for its state, with
its own counters, and one for a change of its link. -/
structure Named (before after : InterfacesSnapshot) (events : List Event) : Prop where
  state : ∀ p ∈ after.ports, ∃ e, events.filter (isState p.1) = [e] ∧
    e.metrics = after.ownCounters p.1
  only : ∀ e ∈ events, e.eventType = "interface.state" → ∃ p ∈ after.ports, e.interface = some p.1
  change : ∀ name v w, link before name = some v → link after name = some w → v.pyEq w = false →
    ∃ e ∈ events, e.eventType = "interface.change" ∧ e.interface = some name ∧
      ∃ field : String, ("field", Json.str field) ∈ e.attrs ∧ "link".toList <:+ field.toList

variable {before after : InterfacesSnapshot} {now : ℤ} {prev r : ApiRow}

theorem not_silent (hkind : r.kind ∈ ifaceKinds) : r.silent = false := by
  have hnot : ∀ kind ∈ ifaceKinds, kind ≠ "snmp_silent" := by decide
  simpa [ApiRow.silent] using hnot r.kind hkind

theorem changeEvent_eventType (field : String) (v w : Json) :
    (changeEvent now r field v w).eventType ≠ "interface.state" := by
  show (if (nonempty (interfaceOf field r.kind)).isSome then "interface.change"
    else "device.change") ≠ _
  split <;> decide

theorem changeEvent_of_interface {v w : Json}
    (h : nonempty (interfaceOf field r.kind) = some name) :
    (changeEvent now r field v w).eventType = "interface.change" :=
  if_pos (by rw [h]; rfl)

theorem interface_changeEvent (field : String) (v w : Json) :
    (changeEvent now r field v w).interface = interfaceOf field r.kind := rfl

theorem field_mem_attrs (field : String) (v w : Json) :
    ("field", Json.str field) ∈ (changeEvent now r field v w).attrs := by
  simp [changeEvent]

theorem changeEvent_mem (hkind : r.kind ∈ ifaceKinds)
    (hchanges : (changedFields (stableFields prev.summary) (stableFields r.summary)).length ≤
      maxChangesPerSnapshot) {v w : Json}
    (h : (field, v, w) ∈ changedFields (stableFields prev.summary) (stableFields r.summary)) :
    changeEvent now r field v w ∈ apiEvents now (some prev) r := by
  have hmem : changeEvent now r field v w ∈ changeEvents now (some prev) r := by
    rw [changeEvents, List.take_of_length_le hchanges]
    exact List.mem_map.mpr ⟨(field, v, w), h, rfl⟩
  rw [apiEvents, not_silent hkind, if_neg (by decide)]
  exact List.mem_append_left _ (List.mem_cons_of_mem _ hmem)

theorem link_suffix (name : String) : "link".toList <:+ (portPath name "link").toList := by
  refine ⟨("results" ++ "." ++ name ++ ".").toList, ?_⟩
  rw [← String.toList_append, portPath]

theorem mem_changeEvents {e : Event} {prev : Option ApiRow} (h : e ∈ changeEvents now prev r) :
    e.eventType ≠ "interface.state" := by
  cases prev with
  | none => cases h
  | some prev =>
    obtain ⟨c, -, rfl⟩ := List.mem_map.mp h
    exact changeEvent_eventType _ _ _

theorem deviceEvent_eventType (now : ℤ) (r : ApiRow) :
    (deviceEvent now r).eventType ≠ "interface.state" := by
  show (if r.silent then "device.unreachable" else "device.state") ≠ _
  split <;> decide

theorem filter_isState (hkind : r.kind ∈ ifaceKinds) (prev : Option ApiRow) (name : String) :
    (apiEvents now prev r).filter (isState name) =
      ((interfacesOf r.summary r.kind).filter fun p => p.1 = name).map fun p =>
        interfaceEvent now r p.1 p.2 := by
  have hskip {e : Event} (he : e.eventType ≠ "interface.state") : isState name e = false := by
    simp [isState, he]
  rw [apiEvents, not_silent hkind, if_neg (by decide), List.cons_append,
    List.filter_cons_of_neg (by simp [hskip (deviceEvent_eventType now r)]), List.filter_append,
    List.filter_eq_nil_iff.mpr fun e he => by simp [hskip (mem_changeEvents he)], List.nil_append,
    List.filter_map]
  congr 1
  refine List.filter_congr fun p _ => ?_
  simp [isState, interfaceEvent]

theorem interface_of_state {e : Event} (hkind : r.kind ∈ ifaceKinds) {prev : Option ApiRow}
    (he : e ∈ apiEvents now prev r) (hstate : e.eventType = "interface.state") :
    ∃ p ∈ interfacesOf r.summary r.kind, e.interface = some p.1 := by
  rw [apiEvents, not_silent hkind, if_neg (by decide), List.cons_append] at he
  rcases List.mem_cons.mp he with rfl | he
  · exact absurd hstate (deviceEvent_eventType now r)
  · rcases List.mem_append.mp he with he | he
    · exact absurd hstate (mem_changeEvents he)
    · obtain ⟨p, hp, rfl⟩ := List.mem_map.mp he
      exact ⟨p, hp, rfl⟩

theorem nameable_of_named (hkind : r.kind ∈ ifaceKinds) (hafter : r.summary = some after.toJson)
    (hsmall : Small after) {prev : Option ApiRow}
    (h : Named before after (apiEvents now prev r)) : Nameable after := by
  have hkey {p : String × Dict Json} (hp : p ∈ after.ports) :
      ∃ l ∈ stableFields (some after.toJson), interfaceOf l.1 r.kind = some p.1 := by
    obtain ⟨e, hfilter, -⟩ := h.state p hp
    rw [filter_isState hkind, hafter] at hfilter
    obtain ⟨x, hx, -⟩ := List.map_eq_singleton_iff.mp hfilter
    have hmem : x ∈ (interfacesOf (some after.toJson) r.kind).filter fun q => q.1 = p.1 := by
      rw [hx]
      exact List.mem_singleton_self x
    obtain ⟨hmem, hxp⟩ := List.mem_filter.mp hmem
    have hname : p.1 ∈ (interfacesOf (some after.toJson) r.kind).map Prod.fst := by
      rw [← of_decide_eq_true hxp]
      exact List.mem_map_of_mem hmem
    exact ((mem_keys_interfacesOf hkind).mp hname).2
  have hplain {p : String × Dict Json} (hp : p ∈ after.ports) :
      '.' ∉ p.1.toList ∧ startsWith p.1 "[" = false ∧ isVolatile p.1 = false := by
    obtain ⟨l, hl, hname⟩ := hkey hp
    obtain ⟨hdot, hbracket, hinfix⟩ := interfaceOf_eq_some hname
    refine ⟨hdot, hbracket, Bool.eq_false_iff.mpr fun hvolatile => ?_⟩
    have hpath := isVolatile_of_infix hinfix hvolatile
    rw [(mem_stableFields.mp hl).2.2] at hpath
    exact absurd hpath (by decide)
  intro p hp
  obtain ⟨hdot, hbracket, hvolatile⟩ := hplain hp
  obtain ⟨l, hl, hname⟩ := hkey hp
  obtain ⟨port, hport, q, hq, hpath⟩ := exists_port_of_interfaceOf hsmall hl hname
  rw [hpath, interfaceOf_portPath hkind (hplain hport).1 (hplain hport).2.1] at hname
  have hsame : p.2 = port.2 := by
    have hget := after.unique.get?_of_mem (k := port.1) (v := port.2) hport
    rw [Option.some.inj hname, after.unique.get?_of_mem (k := p.1) (v := p.2) hp] at hget
    exact Option.some.inj hget
  refine ⟨hdot, hbracket, hvolatile, q, hsame ▸ hq, Bool.eq_false_iff.mpr fun hfield => ?_⟩
  have hstable := (mem_stableFields.mp hl).2.2
  rw [hpath, Bool.eq_false_iff] at hstable
  exact hstable ((isVolatile_portPath _ _).mpr (Or.inr hfield))

theorem mem_stable_link {s : InterfacesSnapshot} (hsmall : Small s) {name : String} {v : Json}
    (hlink : link s name = some v) (hdot : '.' ∉ name.toList)
    (hbracket : startsWith name "[" = false) (hvolatile : isVolatile name = false) :
    (portPath name "link", v) ∈ stableFields (some s.toJson) := by
  obtain ⟨fields, hport, hv⟩ := Option.bind_eq_some_iff.mp hlink
  exact mem_stable_of_field hsmall (mem_of_get? hport) (mem_of_get? hv) hdot hbracket hvolatile
    (by decide) (by decide)

theorem named_of_nameable (hkind : r.kind ∈ ifaceKinds) (hafter : r.summary = some after.toJson)
    (hbefore : prev.summary = some before.toJson) (hsmall : Small after) (hsmall' : Small before)
    (hchanges : (changedFields (stableFields prev.summary) (stableFields r.summary)).length ≤
      maxChangesPerSnapshot)
    (h : Nameable after) : Named before after (apiEvents now (some prev) r) := by
  have hport {name : String} (hname : name ∈ (interfacesOf r.summary r.kind).map Prod.fst) :
      ∃ p ∈ after.ports, p.1 = name := by
    rw [hafter] at hname
    obtain ⟨-, l, hl, hlname⟩ := (mem_keys_interfacesOf hkind).mp hname
    obtain ⟨port, hport, q, hq, hpath⟩ := exists_port_of_interfaceOf hsmall hl hlname
    obtain ⟨hdot, hbracket, -⟩ := h port hport
    rw [hpath, interfaceOf_portPath hkind hdot hbracket] at hlname
    exact ⟨port, hport, Option.some.inj hlname⟩
  refine ⟨fun p hp => ?_, fun e he hstate => ?_, fun name v w hv hw hne => ?_⟩
  · obtain ⟨hdot, hbracket, hvolatile, q, hq, hfield⟩ := h p hp
    obtain ⟨l, hl, hpath⟩ := exists_stable hsmall hp hq hvolatile hfield
    have hname : p.1 ∈ (interfacesOf r.summary r.kind).map Prod.fst := by
      rw [hafter, mem_keys_interfacesOf hkind]
      refine ⟨after.named p hp, l, hl, ?_⟩
      rw [hpath, interfaceOf_portPath hkind hdot hbracket]
    obtain ⟨x, hx, hxp⟩ := List.mem_map.mp hname
    obtain ⟨name, fields⟩ := x
    obtain rfl : name = p.1 := hxp
    refine ⟨interfaceEvent now r p.1 fields, ?_, ?_⟩
    · rw [filter_isState hkind, (unique_interfacesOf _ _).filter_key hx]
      rfl
    · show ownMeasures (measured r.summary) p.1 = _
      rw [hafter]
      exact ownMeasures_measured hdot fun p hp => (h p hp).1
  · obtain ⟨p, hp, hiface⟩ := interface_of_state hkind he hstate
    obtain ⟨port, hport, hname⟩ := hport (List.mem_map_of_mem hp)
    exact ⟨port, hport, by rw [hiface, hname]⟩
  · obtain ⟨fields, hfields, -⟩ := Option.bind_eq_some_iff.mp hw
    obtain ⟨hdot, hbracket, hvolatile, -⟩ := h (name, fields) (mem_of_get? hfields)
    have hv' := mem_stable_link hsmall' hv hdot hbracket hvolatile
    have hw' := mem_stable_link hsmall hw hdot hbracket hvolatile
    have hchanged : (portPath name "link", v, w) ∈
        changedFields (stableFields prev.summary) (stableFields r.summary) := by
      rw [hbefore, hafter, changedFields, List.mem_filterMap]
      refine ⟨_, hw', ?_⟩
      rw [(unique_stableFields hsmall').get?_of_mem hv']
      simp [hne]
    have hiface : interfaceOf (portPath name "link") r.kind = some name :=
      interfaceOf_portPath hkind hdot hbracket
    have hne' : name ≠ "" := after.named _ (mem_of_get? hfields)
    exact ⟨_, changeEvent_mem hkind hchanges hchanged,
      changeEvent_of_interface (nonempty_eq_some.mpr ⟨hiface, hne'⟩),
      (interface_changeEvent _ v w).trans hiface, _, field_mem_attrs _ v w, link_suffix name⟩

/-- For every pair of snapshots of interfaces, within the limits on paths and changes, every event
names the interface it is about exactly when each name of the snapshot has no dot, no bracket in
front and no hint in it, and each interface has a field without a hint. -/
theorem named_iff (hkind : r.kind ∈ ifaceKinds) (hafter : r.summary = some after.toJson)
    (hbefore : prev.summary = some before.toJson) (hsmall : Small after) (hsmall' : Small before)
    (hchanges : (changedFields (stableFields prev.summary) (stableFields r.summary)).length ≤
      maxChangesPerSnapshot) :
    Named before after (apiEvents now (some prev) r) ↔ Nameable after :=
  ⟨nameable_of_named hkind hafter hsmall,
    named_of_nameable hkind hafter hbefore hsmall hsmall' hchanges⟩

def oneInterface (name linkState : String) (h : name ≠ "") : InterfacesSnapshot where
  first := []
  ports := [(name, [("link", .str linkState)])]
  counters := some [(name, [("in_errors", .int 7)])]
  last := []
  words := by simp
  named := by simpa using h
  unique := by simp [PyDict.Unique]
  flat := by simp [PyDict.Unique, Json.isScalar]
  counted := by simp [PyDict.Unique]

def interfacesRow (id : ℕ) (s : InterfacesSnapshot) : ApiRow where
  id := id
  ts := 60000
  tenant := "acme"
  deviceIp := "10.0.0.1"
  kind := "snmp_interfaces"
  summary := some s.toJson

/-- A link that goes down. -/
theorem named_iff_port1 :
    Named (oneInterface "port1" "up" (by decide)) (oneInterface "port1" "down" (by decide))
        (apiEvents 60030 (some (interfacesRow 1 (oneInterface "port1" "up" (by decide))))
          (interfacesRow 2 (oneInterface "port1" "down" (by decide)))) ↔
      Nameable (oneInterface "port1" "down" (by decide)) :=
  named_iff (by decide) rfl rfl (by unfold Small; decide) (by unfold Small; decide)
    (by decide)

def subinterfaceUp : InterfacesSnapshot := oneInterface "Gi0/1.100" "up" (by decide)

def subinterfaceDown : InterfacesSnapshot := oneInterface "Gi0/1.100" "down" (by decide)

/-- A link of a subinterface goes down, and no event names it. -/
theorem subinterface_unnamed :
    ¬ ∀ (before after : InterfacesSnapshot) (now : ℤ) (prev r : ApiRow), r.kind ∈ ifaceKinds →
      r.summary = some after.toJson → prev.summary = some before.toJson → Small after →
      Small before →
      (changedFields (stableFields prev.summary) (stableFields r.summary)).length ≤
        maxChangesPerSnapshot →
      Named before after (apiEvents now (some prev) r) := by
  intro hclaim
  have hsmall : Small subinterfaceDown := by
    unfold Small
    decide
  have hsmall' : Small subinterfaceUp := by
    unfold Small
    decide
  have hchanges : (changedFields (stableFields (interfacesRow 1 subinterfaceUp).summary)
      (stableFields (interfacesRow 2 subinterfaceDown).summary)).length ≤
        maxChangesPerSnapshot := by
    decide
  have hkind : (interfacesRow 2 subinterfaceDown).kind ∈ ifaceKinds := by decide
  have hnamed := hclaim subinterfaceUp subinterfaceDown 60030 (interfacesRow 1 subinterfaceUp)
    (interfacesRow 2 subinterfaceDown) hkind rfl rfl hsmall hsmall' hchanges
  have hnameable := nameable_of_named hkind rfl hsmall hnamed
  have hdot := (hnameable ("Gi0/1.100", [("link", .str "down")]) (List.mem_singleton_self _)).1
  exact absurd hdot (by decide)

end SentinelNet.Observability
