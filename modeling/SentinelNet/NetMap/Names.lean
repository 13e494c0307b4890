import SentinelNet.Lib.DictLoops
import SentinelNet.NetMap.Drawing

/-!
# Whom a name leads to

The loops that fill the tables of names, as searches: a name leads to the device of the last file
with it, or of the first row of the inventory with it, or of the last file with the first name that
it is the host part of; and the candidates are all devices with the name, once.

* `Sources.owner`, `get?_hostnameToIp`: the device that a name leads to.
* `Sources.bearers`, `get?_nameCandidates`: the devices with a name.
* `Sources.Bears`, `mem_bearers`, `bears_of_owner`: what it is to have a name, as owners do.
* `Sources.others`, `Sources.leads`, `named_eq_leads`: where the name of a neighbour leads.
-/

namespace SentinelNet.NetMap

open PyDict PyText Inventory Regex

/-! ## Texts -/

theorem baseName_lower (name : String) : baseName (lower name) = lower (baseName name) := by
  have htake : ∀ cs : List Char, (cs.map Char.toLower).takeWhile (· ≠ '.') =
      (cs.takeWhile (· ≠ '.')).map Char.toLower := by
    intro cs
    induction cs with
    | nil => rfl
    | cons x cs ih =>
      rw [List.map_cons, List.takeWhile_cons, List.takeWhile_cons]
      by_cases hx : x = '.'
      · rw [hx]
        rfl
      · have hlow : x.toLower ≠ '.' := fun h => hx (eq_of_toLower (by decide) h)
        rw [if_pos (by simpa using hlow), if_pos (by simpa using hx), List.map_cons, ih]
  unfold baseName lower
  rw [String.toList_ofList, String.toList_ofList, htake]

@[simp] theorem baseName_baseName (name : String) : baseName (baseName name) = baseName name := by
  simp [baseName, List.takeWhile_takeWhile]

/-! ## Searches -/

section Owners

variable (w : Sources)

def rowNames (p : String × Host) : List (String × String) :=
  let hn := strip p.2.hostname
  if hn = "" then [] else [(lower hn, p.1), (lower (baseName hn), p.1)]

def Sources.lastFile (k : String) : Option String :=
  (w.reads.reverse.find? fun p => lower p.2.hostname = k).map Prod.fst

/-- The first device of the inventory with a name. -/
def Sources.firstRow (k : String) : Option String :=
  ((w.ipToDevice.flatMap rowNames).find? fun p => p.1 = k).map Prod.snd

/-- The device that the first name of a file with a host part leads to. -/
def Sources.firstHost (k : String) : Option String :=
  (w.reads.find? fun p => lower (baseName p.2.hostname) = k).bind fun p =>
    w.lastFile (lower p.2.hostname)

/-- The device that a name leads to. -/
def Sources.owner (k : String) : Option String :=
  (w.lastFile k).or ((w.firstRow k).or (w.firstHost k))

theorem get?_fileNames (k : String) : get? w.fileNames k = w.lastFile k := by
  unfold Sources.fileNames Sources.lastFile
  rw [get?_assign_last, get?_nil, Option.or_none, ← List.map_reverse, List.find?_map,
    Option.map_map]
  rfl

theorem knownNames_eq : w.knownNames = fill w.fileNames (w.ipToDevice.flatMap rowNames) := by
  unfold Sources.knownNames fill
  rw [List.foldl_flatMap]
  congr 1
  funext d p
  unfold rowNames
  dsimp only
  split
  · rfl
  · rfl

theorem get?_knownNames (k : String) : get? w.knownNames k = (w.lastFile k).or (w.firstRow k) := by
  rw [knownNames_eq, get?_fill, get?_fileNames]
  rfl

theorem isSome_baseName_of_mem {p : String × String} (h : p ∈ w.ipToDevice.flatMap rowNames) :
    (w.firstRow (baseName p.1)).isSome = true := by
  obtain ⟨q, hq, hp⟩ := List.mem_flatMap.mp h
  have hbase : (baseName p.1, p.2) ∈ rowNames q := by
    unfold rowNames at hp ⊢
    dsimp only at hp ⊢
    split at hp
    · cases hp
    · next hn =>
      rw [if_neg hn]
      rcases List.mem_cons.mp hp with rfl | hp
      · rw [baseName_lower]
        exact List.mem_cons_of_mem _ (List.mem_singleton_self _)
      · rw [List.mem_singleton.mp hp, baseName_lower, baseName_baseName]
        exact List.mem_cons_of_mem _ (List.mem_singleton_self _)
  unfold Sources.firstRow
  rw [Option.isSome_map, List.find?_isSome]
  exact ⟨_, List.mem_flatMap.mpr ⟨q, hq, hbase⟩, by simp⟩

theorem find?_fileNames (k : String) :
    (w.fileNames.map Prod.fst).find? (fun name => baseName name = k) =
      (w.reads.find? fun p => lower (baseName p.2.hostname) = k).map fun p =>
        lower p.2.hostname := by
  have hkey : (fun p : String × ParsedDevice => decide (baseName (lower p.2.hostname) = k)) =
      fun p => decide (lower (baseName p.2.hostname) = k) := by
    funext p
    rw [baseName_lower]
  unfold Sources.fileNames
  rw [find?_keys_assign, List.map_nil, List.nil_append, List.map_map, List.find?_map, ← hkey]
  simp only [Function.comp_def]

variable {k : String}

theorem find?_knownNames (h : get? w.knownNames k = none) :
    (w.knownNames.find? fun p => baseName p.1 = k).map Prod.snd = w.firstHost k := by
  obtain ⟨e, he, hmem⟩ := exists_fill w.fileNames (w.ipToDevice.flatMap rowNames)
  rw [get?_knownNames, Option.or_eq_none_iff] at h
  have hrows : (e.find? fun p => baseName p.1 = k) = none := by
    refine List.find?_eq_none.mpr fun p hp hbase => ?_
    have hsome := isSome_baseName_of_mem w (hmem p hp)
    rw [of_decide_eq_true hbase, h.2] at hsome
    cases hsome
  have hunique : Unique w.fileNames := unique_nil.assign _
  have hget : get? w.fileNames = w.lastFile := funext (get?_fileNames w)
  rw [knownNames_eq, he, List.find?_append, hrows, Option.or_none,
    hunique.find?_key fun name => decide (baseName name = k), find?_fileNames, hget,
    Option.bind_map]
  rfl

/-- `hostname_to_ip` has the owners of the names. -/
theorem get?_hostnameToIp (k : String) : get? w.hostnameToIp k = w.owner k := by
  have hfill : w.hostnameToIp =
      fill w.knownNames (w.knownNames.map fun p => (baseName p.1, p.2)) := by
    unfold Sources.hostnameToIp fill
    rw [List.foldl_map]
  rw [hfill, get?_fill, List.find?_map, Option.map_map]
  unfold Sources.owner
  rw [← Option.or_assoc, ← get?_knownNames]
  cases hknown : get? w.knownNames k with
  | some ip => rfl
  | none =>
    rw [Option.none_or, Option.none_or]
    exact find?_knownNames w hknown

/-! ## Candidates -/

def matchesKey (k name : String) : Bool :=
  decide (lower name = k) || decide (lower (baseName name) = k)

/-- The devices with a name. -/
def Sources.bearers (k : String) : List String :=
  firsts ((w.namedDevices.filter fun p => matchesKey k p.1).map Prod.snd)

theorem lower_ne_of_not_matches {name : String} (hkey : matchesKey k name = false) :
    lower name ≠ k ∧ lower (baseName name) ≠ k := by
  unfold matchesKey at hkey
  rw [Bool.or_eq_false_iff, decide_eq_false_iff_not, decide_eq_false_iff_not] at hkey
  exact hkey

theorem get?_addName (d : Dict (List String)) (name ip k : String) :
    (get? (addName d name ip) k).getD [] =
      if matchesKey k name then pushNew ((get? d k).getD []) ip else (get? d k).getD [] := by
  have hstep : ∀ (d : Dict (List String)) (a : String),
      (get? (set d a (pushNew ((get? d a).getD []) ip)) k).getD [] =
        if a = k then pushNew ((get? d k).getD []) ip else (get? d k).getD [] := by
    intro d a
    rw [get?_set]
    by_cases ha : k = a
    · rw [if_pos ha, if_pos ha.symm, ha]
      rfl
    · rw [if_neg ha, if_neg (Ne.symm ha)]
  have htwice : ∀ s : List String, pushNew (pushNew s ip) ip = pushNew s ip := by
    intro s
    have hmem : ip ∈ pushNew s ip := by
      unfold pushNew
      split
      · next h => exact h
      · exact List.mem_append_right _ (List.mem_singleton_self _)
    exact if_pos hmem
  have hadd : addName d name ip =
      set (set d (lower name) (pushNew ((get? d (lower name)).getD []) ip)) (lower (baseName name))
        (pushNew ((get? (set d (lower name) (pushNew ((get? d (lower name)).getD []) ip))
          (lower (baseName name))).getD []) ip) := rfl
  rw [hadd, hstep, hstep]
  by_cases hbase : lower (baseName name) = k
  · have hkey : matchesKey k name = true := by simp [matchesKey, hbase]
    rw [if_pos hbase, if_pos hkey]
    split
    · exact htwice _
    · rfl
  · rw [if_neg hbase]
    by_cases hname : lower name = k
    · have hkey : matchesKey k name = true := by simp [matchesKey, hname]
      rw [if_pos hname, if_pos hkey]
    · have hkey : ¬ matchesKey k name = true := by simp [matchesKey, hname, hbase]
      rw [if_neg hname, if_neg hkey]

/-- `name_candidates` has the bearers of the names. -/
theorem get?_nameCandidates (k : String) : (get? w.nameCandidates k).getD [] = w.bearers k := by
  have hfold : ∀ (l : List (String × String)) (d : Dict (List String)),
      (get? (l.foldl (fun d p => addName d p.1 p.2) d) k).getD [] =
        ((l.filter fun p => matchesKey k p.1).map Prod.snd).foldl pushNew ((get? d k).getD []) := by
    intro l
    induction l with
    | nil => exact fun d => rfl
    | cons p l ih =>
      intro d
      rw [List.foldl_cons, ih, get?_addName]
      rw [List.filter_cons]
      split
      · rfl
      · rfl
  exact hfold w.namedDevices []

variable {ip : String}

theorem mem_reads_of_get? {p : ParsedDevice}
    (hp : get? w.parsedDevices ip = some p) : (ip, p) ∈ w.reads := by
  have hlast := get?_assign_last [] w.reads ip
  unfold Sources.parsedDevices at hp
  rw [hp, get?_nil, Option.or_none] at hlast
  obtain ⟨q, hq, hqp⟩ := Option.map_eq_some_iff.mp hlast.symm
  have hfound := List.find?_some hq
  have hkey : q.1 = ip := of_decide_eq_true hfound
  rw [← hkey, ← hqp]
  exact List.mem_reverse.mp (List.mem_of_find?_eq_some hq)

/-- A device has a name: in its backup, or in the inventory. -/
def Sources.Bears (ip k : String) : Prop :=
  (∃ p, get? w.parsedDevices ip = some p ∧ matchesKey k p.hostname = true) ∨
    ∃ d, get? w.ipToDevice ip = some d ∧ strip d.hostname ≠ "" ∧
      matchesKey k (strip d.hostname) = true

theorem unique_parsedDevices : Unique w.parsedDevices := unique_nil.assign _

theorem unique_ipToDevice : Unique w.ipToDevice := unique_nil.assign _

theorem mem_bearers : ip ∈ w.bearers k ↔ w.Bears ip k := by
  unfold Sources.bearers Sources.namedDevices Sources.Bears
  rw [mem_firsts, List.filter_append, List.map_append, List.mem_append]
  refine or_congr ?_ ?_
  · constructor
    · intro h
      obtain ⟨q, hq, rfl⟩ := List.mem_map.mp h
      obtain ⟨hq, hkey⟩ := List.mem_filter.mp hq
      obtain ⟨p, hp, rfl⟩ := List.mem_map.mp hq
      exact ⟨p.2, (unique_parsedDevices w).mem_iff.mp hp, hkey⟩
    · rintro ⟨p, hp, hkey⟩
      exact List.mem_map.mpr ⟨(p.hostname, ip), List.mem_filter.mpr
        ⟨List.mem_map.mpr ⟨(ip, p), mem_of_get? hp, rfl⟩, hkey⟩, rfl⟩
  · constructor
    · intro h
      obtain ⟨q, hq, rfl⟩ := List.mem_map.mp h
      obtain ⟨hq, hkey⟩ := List.mem_filter.mp hq
      obtain ⟨p, hp, rfl⟩ := List.mem_map.mp hq
      obtain ⟨hp, hname⟩ := List.mem_filter.mp hp
      exact ⟨p.2, (unique_ipToDevice w).mem_iff.mp hp, of_decide_eq_true hname, hkey⟩
    · rintro ⟨d, hd, hname, hkey⟩
      exact List.mem_map.mpr ⟨(strip d.hostname, ip), List.mem_filter.mpr
        ⟨List.mem_map.mpr ⟨(ip, d), List.mem_filter.mpr ⟨mem_of_get? hd, decide_eq_true hname⟩,
          rfl⟩, hkey⟩, rfl⟩

/-- The devices that an announcement may mean: those with the announced name or, if no device has
it, those with its host part. -/
def Sources.meant (n : Neighbor) : List String :=
  if w.bearers (lower n.neighborId) = [] then w.bearers (lower (baseName n.neighborId))
  else w.bearers (lower n.neighborId)

/-- The devices other than the announcing one that an announcement may mean. -/
def Sources.others (ip : String) (n : Neighbor) : List String := (w.meant n).filter (· ≠ ip)

/-- The owner of a name has it in one of its files, or in the inventory. -/
theorem bears_of_owner (h : w.owner k = some ip) :
    (∃ p ∈ w.reads, p.1 = ip ∧ matchesKey k p.2.hostname = true) ∨
      ∃ d, get? w.ipToDevice ip = some d ∧ strip d.hostname ≠ "" ∧
        matchesKey k (strip d.hostname) = true := by
  have hlast : ∀ {j : String}, w.lastFile j = some ip →
      ∃ p ∈ w.reads, p.1 = ip ∧ lower p.2.hostname = j := by
    intro j hj
    obtain ⟨p, hp, rfl⟩ := Option.map_eq_some_iff.mp hj
    have hname := List.find?_some hp
    exact ⟨p, List.mem_reverse.mp (List.mem_of_find?_eq_some hp), rfl, of_decide_eq_true hname⟩
  unfold Sources.owner at h
  rcases Option.or_eq_some_iff.mp h with h | ⟨-, h⟩
  · obtain ⟨p, hp, hip, hname⟩ := hlast h
    exact .inl ⟨p, hp, hip, by rw [matchesKey, decide_eq_true hname, Bool.true_or]⟩
  rcases Option.or_eq_some_iff.mp h with h | ⟨-, h⟩
  · obtain ⟨y, hy, rfl⟩ := Option.map_eq_some_iff.mp h
    obtain ⟨q, hq, hyq⟩ := List.mem_flatMap.mp (List.mem_of_find?_eq_some hy)
    have hfound := List.find?_some hy
    have hkey : y.1 = k := of_decide_eq_true hfound
    have hd := (unique_ipToDevice w).mem_iff.mp hq
    unfold rowNames at hyq
    dsimp only at hyq
    split at hyq
    · cases hyq
    · next hn =>
      rcases List.mem_cons.mp hyq with rfl | hyq
      · exact .inr ⟨q.2, hd, hn, by rw [matchesKey, decide_eq_true hkey, Bool.true_or]⟩
      · obtain rfl := List.mem_singleton.mp hyq
        exact .inr ⟨q.2, hd, hn, by rw [matchesKey, decide_eq_true hkey, Bool.or_true]⟩
  · obtain ⟨p, hp, hlead⟩ := Option.bind_eq_some_iff.mp h
    have hfound := List.find?_some hp
    have hbase : lower (baseName p.2.hostname) = k := of_decide_eq_true hfound
    obtain ⟨q, hq, hip, hname⟩ := hlast hlead
    refine .inl ⟨q, hq, hip, ?_⟩
    rw [matchesKey, ← baseName_lower, hname, baseName_lower, decide_eq_true hbase, Bool.or_true]

/-- The owner of the name of a neighbour, or of its host part. -/
def Sources.ownerOf (n : Neighbor) : String :=
  orElse ((w.owner (lower n.neighborId)).getD "")
    ((w.owner (lower (baseName n.neighborId))).getD "")

/-- Where the name of a neighbour leads: among several others to the one that is picked, and
otherwise to its owner. -/
def Sources.leads (ip : String) (n : Neighbor) : String :=
  if 1 < (w.others ip n).length then
    (w.pickSameName (w.others ip n) ip
      ([n.localPort, w.aggregate ip n.localPort].filter (· ≠ "")) n.neighborIp).getD ""
  else w.ownerOf n

theorem sameName_eq_others (ip : String) (n : Neighbor) : w.sameName ip n = w.others ip n := by
  unfold Sources.sameName Sources.candidates Sources.others Sources.meant
  rw [get?_nameCandidates, get?_nameCandidates]

theorem named_eq_leads (ip : String) (n : Neighbor) : w.named ip n = w.leads ip n := by
  unfold Sources.named Sources.leads
  rw [sameName_eq_others, get?_hostnameToIp, get?_hostnameToIp]
  rfl

theorem mem_of_nearest {candidates l l' : List String} {x : String}
    (hx : (match l, l' with
      | [c], _ => some c
      | _, [c] => some c
      | _, _ => candidates.head?) = some x)
    (hl : l ⊆ candidates) (hl' : l' ⊆ candidates) : x ∈ candidates := by
  split at hx
  · exact Option.some.inj hx ▸ hl (List.mem_singleton_self _)
  · exact Option.some.inj hx ▸ hl' (List.mem_singleton_self _)
  · exact List.mem_of_mem_head? hx

theorem mem_of_pickSameName {candidates ports : List String} {neighIp x : String}
    (h : w.pickSameName candidates ip ports neighIp = some x) : x ∈ candidates := by
  unfold Sources.pickSameName at h
  dsimp only at h
  split at h
  · next hmem => exact Option.some.inj h ▸ hmem
  · split at h
    · exact mem_of_nearest h (List.filter_subset_self _) (List.filter_subset_self _)
    · split at h
      · next hits =>
        have hmem : _ ∈ candidates.filter _ := hits ▸ List.mem_singleton_self _
        exact Option.some.inj h ▸ (List.mem_filter.mp hmem).1
      · split at h
        · cases h
        · exact mem_of_nearest h (List.filter_subset_self _) (List.filter_subset_self _)
      · exact mem_of_nearest h (List.filter_subset_self _) (List.filter_subset_self _)

theorem leads_self_iff (hip : ip ≠ "") (n : Neighbor) :
    w.leads ip n = ip ↔ (w.others ip n).length ≤ 1 ∧ w.ownerOf n = ip := by
  unfold Sources.leads
  split
  · next hlong =>
    refine iff_of_false (fun h => ?_) fun h => absurd h.1 (not_le.mpr hlong)
    cases hpick : w.pickSameName (w.others ip n) ip
        ([n.localPort, w.aggregate ip n.localPort].filter (· ≠ "")) n.neighborIp with
    | none =>
      rw [hpick] at h
      exact hip h.symm
    | some x =>
      rw [hpick] at h
      have hmem := mem_of_pickSameName w hpick
      rw [show x = ip from h] at hmem
      exact of_decide_eq_true (List.mem_filter.mp hmem).2 rfl
  · next hshort => exact (and_iff_right (not_lt.mp hshort)).symm

theorem neighborInfo_eq : w.neighborInfo = fill [] (w.announcements.flatMap fun e =>
    e.2.infoKeys.map fun k => (k, ⟨e.2.platform, e.2.capabilities, e.2.description⟩)) := by
  unfold Sources.neighborInfo fill
  rw [List.foldl_flatMap]
  simp only [List.foldl_map]

end Owners

/-! ## Addresses -/

theorem run_addressRe {s : List Char} {m : Caps × List Char} (h : m ∈ run addressRe s) :
    ∃ t, s = t ++ m.2 ∧ t ≠ [] ∧ ∀ c ∈ t, c.isDigit = true ∨ c = '.' := by
  have hdigits : Within (fun c => c.isDigit = true ∨ c = '.')
      (.many Char.isDigit 1 (some 3)) := fun c hc => .inl hc
  have hdot : Within (fun c => c.isDigit = true ∨ c = '.') (.chr (· == '.')) :=
    fun c hc => .inr (beq_iff_eq.mp hc)
  have hall : Within (fun c => c.isDigit = true ∨ c = '.') addressRe :=
    ⟨hdigits, hdot, hdigits, hdot, hdigits, hdot, hdigits⟩
  unfold addressRe at h
  rw [run, List.mem_flatMap] at h
  obtain ⟨m₁, hm₁, h⟩ := h
  obtain ⟨m₂, hm₂, rfl⟩ := List.mem_map.mp h
  obtain ⟨t₁, hs, ht₁⟩ := run_within hdigits hm₁
  rw [run, List.mem_flatMap] at hm₂
  obtain ⟨m₃, hm₃, hm₂⟩ := hm₂
  obtain ⟨m₄, hm₄, rfl⟩ := List.mem_map.mp hm₂
  obtain ⟨t₂, hs₂, ht₂⟩ := run_within hall.2.2 hm₄
  cases hm : m₁.2 with
  | nil =>
    rw [hm] at hm₃
    cases hm₃
  | cons x u =>
    rw [hm, run] at hm₃
    split at hm₃
    · next hx =>
      obtain rfl := List.mem_singleton.mp hm₃
      refine ⟨t₁ ++ x :: t₂, ?_, by simp, fun c hc => ?_⟩
      · rw [hs, hm, List.append_assoc, List.cons_append]
        exact congrArg (fun u => t₁ ++ x :: u) hs₂
      · rcases List.mem_append.mp hc with hc | hc
        · exact ht₁ c hc
        · rcases List.mem_cons.mp hc with rfl | hc
          · exact hdot _ hx
          · exact ht₂ c hc
    · cases hm₃

/-- The address in the name of a file has digits and dots. -/
theorem firstAddress_chars {filename ip : String} (h : firstAddress filename = some ip) :
    ip ≠ "" ∧ ∀ c ∈ ip.toList, c.isDigit = true ∨ c = '.' := by
  unfold firstAddress search at h
  obtain ⟨m, hm, rfl⟩ := Option.map_eq_some_iff.mp h
  obtain ⟨s, -, hs⟩ := List.exists_of_findSome?_eq_some hm
  unfold matchStart first at hs
  obtain ⟨r, hr, rfl⟩ := Option.map_eq_some_iff.mp hs
  have hrun := List.mem_of_mem_head? hr
  rw [run] at hrun
  obtain ⟨r', hr', rfl⟩ := List.mem_map.mp hrun
  obtain ⟨t, hst, hne, ht⟩ := run_addressRe hr'
  have htake : s.take (s.length - r'.2.length) = t := by
    rw [hst, List.length_append, Nat.add_sub_cancel, List.take_left']
    rfl
  have hcapture : capture (("ip", s.take (s.length - r'.2.length)) :: r'.1) "ip" = t := by
    rw [htake]
    rfl
  rw [hcapture, String.toList_ofList]
  refine ⟨fun hempty => hne ?_, ht⟩
  rw [← String.toList_ofList (l := t), hempty]
  rfl

end SentinelNet.NetMap
