import SentinelNet.PolicyTest.Ios

/-!
# Object groups as they are written

A configuration defines object groups in blocks: a line with the kind and the name, and below it,
indented, one line for each member.  The parser reads a member line for what it leads with and
passes over the rest.  A reference to another group is a member line as well, and references may be
nested and cyclic.

* `foldlM_objectGroupLine`: the parser reads the blocks, unless an address has leading zeros.
* `ReachesGroup`, `resolved_of_defined`: a resolved group has what the groups have that it reaches.
-/

namespace SentinelNet.PolicyTest

open PyText PyDict

/-! ## Blocks -/

/-- A group as it is written: its name, its kind and the words of its member lines. -/
structure Definition where
  name : String
  kind : String
  members : List (List String) := []

/-- A line of the configuration: the blocks so far, the latest first, and whether it is open. -/
def definitionLine (st : List Definition × Bool) (raw : String) : List Definition × Bool :=
  let s := strip raw
  if s = "" then st
  else if startsWith s "!" then (st.1, false)
  else if startsWith (lower s) "object-group " then
    match split s with
    | _ :: kind :: name :: _ => ({ name := name, kind := lower kind } :: st.1, true)
    | _ => (st.1, false)
  else if indent raw = 0 then (st.1, false)
  else
    match st with
    | (d :: ds, true) => ({ d with members := d.members ++ [split s] } :: ds, true)
    | _ => st

/-- The blocks of a configuration, the latest first. -/
def written (lines : List String) : List Definition := (lines.foldl definitionLine ([], false)).1

/-- The group with a name: the latest one. -/
def defined (ds : List Definition) (name : String) : Option Definition :=
  ds.find? fun d => d.name = name

/-! ## Member lines -/

def leadingAddresses : List String → List String
  | [] => []
  | [t] => if isIp t then [t] else []
  | t₀ :: t₁ :: _ =>
    if lower t₀ = "host" ∧ isIp t₁ then [t₁]
    else if lower t₀ = "group-object" then []
    else if isIp t₀ ∧ isIp t₁ then [t₀, t₁]
    else if isIp t₀ then [t₀]
    else []

/-- The group that a member line refers to. -/
def reference : List String → Option String
  | t₀ :: t₁ :: _ => if lower t₀ = "group-object" then some t₁ else none
  | _ => none

/-- The number of an address. -/
def addrOf (t : String) : Addr := (ipToInt t).toOption.getD 0

theorem addrOf_eq {t : String} {a : Addr} (h : ipToInt t = .ok a) : addrOf t = a := by
  rw [addrOf, h]
  rfl

/-- The cube of two addresses: a netmask where its ones are its leading bits, else a wildcard. -/
def pairCube (a m : Addr) : Cube :=
  if m.getLsbD 31 ∧ (maskToPrefixLen m).isSome then Cube.make (a &&& m) m
  else Cube.make (a &&& ~~~m) (~~~m)

/-- The cubes of the addresses that a member line leads with. -/
def leadingCubes (toks : List String) : List Cube :=
  match leadingAddresses toks with
  | [a] => [Cube.make (addrOf a) (BitVec.allOnes 32)]
  | [a, m] => [pairCube (addrOf a) (addrOf m)]
  | _ => []

/-- The ports that the words of a line name. -/
def namedPorts (toks : List String) : List (ℤ × ℤ) := toks.tails.flatMap portItem

namespace Definition

variable (d : Definition)

/-- A group of addresses. -/
def IsNetwork : Prop := d.kind = "network"

def IsService : Prop := d.kind = "service" ∨ d.kind = "port"

instance : Decidable d.IsNetwork := inferInstanceAs (Decidable (_ = _))

instance : Decidable d.IsService := inferInstanceAs (Decidable (_ ∨ _))

/-- The group as the parser reads a member line into it. -/
def item (g : IOSObjectGroup) (toks : List String) : IOSObjectGroup :=
  if d.IsNetwork then
    { g with
      cubes := g.cubes ++ leadingCubes toks
      groupRefs := g.groupRefs ++ (reference toks).toList }
  else if d.IsService then
    match reference toks with
    | none => { g with ports := g.ports ++ namedPorts toks }
    | some name => { g with groupRefs := g.groupRefs ++ [name] }
  else g

/-- The group as the parser reads it. -/
def group : IOSObjectGroup :=
  d.members.foldl d.item { name := d.name, kind := d.kind }

/-- Every address that a line of the group leads with can be read. -/
def Readable : Prop :=
  d.IsNetwork → ∀ toks ∈ d.members, ∀ t ∈ leadingAddresses toks, ∃ a, ipToInt t = .ok a

end Definition

/-- What the parser has read of the blocks. -/
structure Reads (st : List Definition × Bool) (st' : ObjectGroups × Option String) : Prop where
  groups : ∀ name, get? st'.1 name = (defined st.1 name).map Definition.group
  current : st'.2 = if st.2 then st.1.head?.map Definition.name else none
  first : st.2 = true → st.1 ≠ []

theorem networkItem_eq (g : IOSObjectGroup) {toks : List String}
    (h : ∀ t ∈ leadingAddresses toks, ∃ a, ipToInt t = .ok a) :
    networkItem g toks = .ok { g with
      cubes := g.cubes ++ leadingCubes toks
      groupRefs := g.groupRefs ++ (reference toks).toList } := by
  have hlower : lower "host" = "host" := by decide
  match toks with
  | [] => simp [networkItem, leadingCubes, leadingAddresses, reference, pure, Except.pure]
  | [t] =>
    unfold networkItem leadingCubes leadingAddresses reference at *
    dsimp only at h ⊢
    by_cases ht : isIp t = true
    · rw [if_pos ht] at h ⊢
      obtain ⟨a, ha⟩ := h t (List.mem_singleton_self t)
      rw [if_pos ht, Cube.fromIp, ha]
      dsimp only
      rw [addrOf_eq ha]
      simp [pure, Except.pure, bind, Except.bind]
    · rw [if_neg ht, if_neg ht]
      simp [pure, Except.pure]
  | t₀ :: t₁ :: rest =>
    unfold networkItem leadingCubes leadingAddresses reference at *
    dsimp only at h ⊢
    by_cases hhost : lower t₀ = "host" ∧ isIp t₁ = true
    · have hgroup : lower t₀ ≠ "group-object" := by
        rw [hhost.1]
        decide
      rw [if_pos hhost] at h ⊢
      obtain ⟨a, ha⟩ := h t₁ (List.mem_singleton_self t₁)
      rw [if_pos hhost, if_neg hgroup, Cube.fromIp, ha]
      dsimp only
      rw [addrOf_eq ha]
      simp [pure, Except.pure, bind, Except.bind]
    · rw [if_neg hhost] at h ⊢
      rw [if_neg hhost]
      by_cases hgroup : lower t₀ = "group-object"
      · rw [if_pos hgroup, if_pos hgroup, if_pos hgroup]
        simp [pure, Except.pure]
      · rw [if_neg hgroup] at h ⊢
        rw [if_neg hgroup, if_neg hgroup]
        by_cases hpair : isIp t₀ = true ∧ isIp t₁ = true
        · rw [if_pos hpair] at h ⊢
          obtain ⟨a, ha⟩ := h t₀ List.mem_cons_self
          obtain ⟨m, hm⟩ := h t₁ (List.mem_cons_of_mem _ (List.mem_singleton_self t₁))
          rw [if_pos hpair, hm]
          dsimp only
          rw [addrOf_eq ha, addrOf_eq hm, pairCube]
          simp only [bind, Except.bind, Cube.fromNetmask, Cube.fromWildcard, ha, hm, pure,
            Except.pure]
          split
          · simp
          · simp
        · rw [if_neg hpair] at h ⊢
          rw [if_neg hpair]
          by_cases ht : isIp t₀ = true
          · rw [if_pos ht] at h ⊢
            obtain ⟨a, ha⟩ := h t₀ (List.mem_singleton_self t₀)
            rw [if_pos ht, Cube.fromIp, ha]
            dsimp only
            rw [addrOf_eq ha]
            simp [pure, Except.pure, bind, Except.bind]
          · rw [if_neg ht, if_neg ht]
            simp [pure, Except.pure]

theorem readable_of_fromIp {t : String} {c : Cube} (h : Cube.fromIp t = .ok c) :
    ∃ a, ipToInt t = .ok a := by
  obtain ⟨a, ha, -⟩ := bind_eq_ok h
  exact ⟨a, ha⟩

theorem readable_of_networkItem {g g' : IOSObjectGroup} {toks : List String}
    (h : networkItem g toks = .ok g') :
    ∀ t ∈ leadingAddresses toks, ∃ a, ipToInt t = .ok a := by
  have hsingle : ∀ {t : String} {f : Cube → IOSObjectGroup},
      (do let c ← Cube.fromIp t; pure (f c) : Py IOSObjectGroup) = .ok g' →
        ∀ x ∈ [t], ∃ a, ipToInt x = .ok a := by
    intro t f hok x hx
    obtain ⟨c, hc, -⟩ := bind_eq_ok hok
    rw [List.mem_singleton.mp hx]
    exact readable_of_fromIp hc
  match toks with
  | [] => exact fun t ht => nomatch ht
  | [t] =>
    unfold networkItem at h
    unfold leadingAddresses
    dsimp only at h ⊢
    split
    · next ht =>
      rw [if_pos ht] at h
      exact hsingle h
    · exact fun t ht => nomatch ht
  | t₀ :: t₁ :: rest =>
    unfold networkItem at h
    unfold leadingAddresses
    dsimp only at h ⊢
    split
    · next hhost =>
      rw [if_pos hhost] at h
      exact hsingle h
    · next hhost =>
      rw [if_neg hhost] at h
      split
      · exact fun t ht => nomatch ht
      · next hgroup =>
        rw [if_neg hgroup] at h
        split
        · next hpair =>
          rw [if_pos hpair] at h
          obtain ⟨m, hm, h⟩ := bind_eq_ok h
          have hval : ∃ a, ipToInt t₀ = .ok a := by
            split at h
            · obtain ⟨c, hc, -⟩ := bind_eq_ok h
              obtain ⟨m', -, hc⟩ := bind_eq_ok hc
              obtain ⟨a, ha, -⟩ := bind_eq_ok hc
              exact ⟨a, ha⟩
            · obtain ⟨c, hc, -⟩ := bind_eq_ok h
              obtain ⟨m', -, hc⟩ := bind_eq_ok hc
              obtain ⟨a, ha, -⟩ := bind_eq_ok hc
              exact ⟨a, ha⟩
          intro t ht
          rcases List.mem_cons.mp ht with rfl | ht
          · exact hval
          · rw [List.mem_singleton.mp ht]
            exact ⟨m, hm⟩
        · next hpair =>
          rw [if_neg hpair] at h
          split
          · next ht =>
            rw [if_pos ht] at h
            exact hsingle h
          · exact fun t ht => nomatch ht

namespace Definition

variable {d : Definition}

theorem item_kind (g : IOSObjectGroup) (toks : List String) : (d.item g toks).kind = g.kind := by
  unfold item
  split
  · rfl
  · split
    · split
      · rfl
      · rfl
    · rfl

theorem group_kind (d : Definition) : d.group.kind = d.kind := by
  have hfold : ∀ (members : List (List String)) (g : IOSObjectGroup),
      (members.foldl d.item g).kind = g.kind := by
    intro members
    induction members with
    | nil => exact fun _ => rfl
    | cons toks members ih =>
      intro g
      rw [List.foldl_cons, ih, item_kind]
  exact hfold d.members _

theorem group_concat (d : Definition) (toks : List String) :
    ({ d with members := d.members ++ [toks] } : Definition).group = d.item d.group toks := by
  unfold group
  rw [List.foldl_append]
  rfl

theorem groupItem_eq {g : IOSObjectGroup} (hg : g.kind = d.kind) {toks : List String}
    (h : d.IsNetwork → ∀ t ∈ leadingAddresses toks, ∃ a, ipToInt t = .ok a) :
    groupItem g toks = .ok (d.item g toks) := by
  have hservices : (g.kind = "service" ∨ g.kind = "port") ↔ d.IsService := by
    rw [hg]
    exact Iff.rfl
  unfold groupItem item
  by_cases hnetwork : d.IsNetwork
  · rw [if_pos (hg.trans hnetwork), if_pos hnetwork, networkItem_eq g (h hnetwork)]
  · rw [if_neg fun hkind => hnetwork (hg.symm.trans hkind), if_neg hnetwork]
    by_cases hservice : d.IsService
    · rw [if_pos (hservices.mpr hservice), if_pos hservice]
      match toks with
      | [] => rfl
      | [t] => rfl
      | t₀ :: t₁ :: rest =>
        by_cases hgroup : lower t₀ = "group-object"
        · have href : reference (t₀ :: t₁ :: rest) = some t₁ := if_pos hgroup
          rw [href, serviceItem, if_pos hgroup]
          rfl
        · have href : reference (t₀ :: t₁ :: rest) = none := if_neg hgroup
          rw [href, serviceItem, if_neg hgroup]
          rfl
    · rw [if_neg fun hkind => hservice (hservices.mp hkind), if_neg hservice]
      rfl

theorem readable_of_groupItem {g g' : IOSObjectGroup} (hg : g.kind = d.kind) {toks : List String}
    (h : groupItem g toks = .ok g') :
    d.IsNetwork → ∀ t ∈ leadingAddresses toks, ∃ a, ipToInt t = .ok a := by
  intro hnetwork
  unfold groupItem at h
  rw [if_pos (hg.trans hnetwork)] at h
  exact readable_of_networkItem h

end Definition

/-! ## The loop over the lines -/

section Loop

variable {st : List Definition × Bool} {st' : ObjectGroups × Option String}

theorem definitionLine_cases (st : List Definition × Bool) (st' : ObjectGroups × Option String)
    (raw : String) :
    (definitionLine st raw = st ∧ objectGroupLine st' raw = .ok st') ∨
      (definitionLine st raw = (st.1, false) ∧ objectGroupLine st' raw = .ok (st'.1, none)) ∨
      (∃ d : Definition, d.members = [] ∧ definitionLine st raw = (d :: st.1, true) ∧
        objectGroupLine st' raw =
          .ok (set st'.1 d.name { name := d.name, kind := d.kind }, some d.name)) ∨
      ∃ toks : List String,
        (definitionLine st raw =
          match st with
          | (d :: ds, true) => ({ d with members := d.members ++ [toks] } :: ds, true)
          | _ => st) ∧
        (objectGroupLine st' raw =
          match st'.2 with
          | none => .ok st'
          | some name =>
            match get? st'.1 name with
            | none => .ok st'
            | some g => groupItem g toks >>= fun g => pure (set st'.1 name g, st'.2)) := by
  unfold definitionLine objectGroupLine
  dsimp only
  by_cases hempty : strip raw = ""
  · rw [if_pos hempty, if_pos hempty]
    exact .inl ⟨rfl, rfl⟩
  · rw [if_neg hempty, if_neg hempty]
    by_cases hmark : startsWith (strip raw) "!" = true
    · rw [if_pos hmark, if_pos hmark]
      exact .inr (.inl ⟨rfl, rfl⟩)
    · rw [if_neg hmark, if_neg hmark]
      by_cases hheader : startsWith (lower (strip raw)) "object-group " = true
      · rw [if_pos hheader, if_pos hheader]
        rcases split (strip raw) with _ | ⟨word, _ | ⟨kind, _ | ⟨name, rest⟩⟩⟩
        · exact .inr (.inl ⟨rfl, rfl⟩)
        · exact .inr (.inl ⟨rfl, rfl⟩)
        · exact .inr (.inl ⟨rfl, rfl⟩)
        · exact .inr (.inr (.inl ⟨⟨name, lower kind, []⟩, rfl, rfl, rfl⟩))
      · rw [if_neg hheader, if_neg hheader]
        by_cases hindent : indent raw = 0
        · rw [if_pos hindent, if_pos hindent]
          exact .inr (.inl ⟨rfl, rfl⟩)
        · rw [if_neg hindent, if_neg hindent]
          exact .inr (.inr (.inr ⟨split (strip raw), rfl, rfl⟩))

/-- Every address that a line leads with can be read. -/
def AllReadable (ds : List Definition) : Prop := ∀ d ∈ ds, d.Readable

theorem allReadable_of_definitionLine {raw : String}
    (h : AllReadable (definitionLine st raw).1) : AllReadable st.1 := by
  rcases definitionLine_cases st ([], none) raw with ⟨hline, -⟩ | ⟨hline, -⟩ |
    ⟨d, -, hline, -⟩ | ⟨toks, hline, -⟩
  · rwa [hline] at h
  · rwa [hline] at h
  · rw [hline] at h
    exact fun e he => h e (List.mem_cons_of_mem d he)
  · rw [hline] at h
    split at h
    · next d ds =>
      intro e he
      rcases List.mem_cons.mp he with rfl | he
      · exact fun hnetwork toks' htoks => h _ List.mem_cons_self hnetwork toks'
          (List.mem_append_left _ htoks)
      · exact h e (List.mem_cons_of_mem _ he)
    · exact h

theorem allReadable_of_foldl {lines : List String}
    (h : AllReadable (lines.foldl definitionLine st).1) : AllReadable st.1 := by
  induction lines generalizing st with
  | nil => exact h
  | cons raw lines ih => exact allReadable_of_definitionLine (ih h)

/-- One line is read exactly where the addresses can be, and then the parser has read the
blocks. -/
theorem objectGroupLine_reads (h : Reads st st') (hst : AllReadable st.1) (raw : String) :
    (AllReadable (definitionLine st raw).1 →
      ∃ r, objectGroupLine st' raw = .ok r ∧ Reads (definitionLine st raw) r) ∧
      ∀ r, objectGroupLine st' raw = .ok r → AllReadable (definitionLine st raw).1 := by
  rcases definitionLine_cases st st' raw with ⟨hline, hread⟩ | ⟨hline, hread⟩ |
    ⟨d, hmembers, hline, hread⟩ | ⟨toks, hline, hread⟩
  · rw [hline, hread]
    exact ⟨fun _ => ⟨st', rfl, h⟩, fun _ _ => hst⟩
  · rw [hline, hread]
    exact ⟨fun _ => ⟨_, rfl, h.groups, rfl, fun hno => nomatch hno⟩, fun _ _ => hst⟩
  · rw [hline, hread]
    have hgroup : d.group = { name := d.name, kind := d.kind } := by
      unfold Definition.group
      rw [hmembers]
      rfl
    refine ⟨fun _ => ⟨_, rfl, fun name => ?_, rfl, fun _ => List.cons_ne_nil _ _⟩,
      fun _ _ e he => ?_⟩
    · dsimp only
      rw [get?_set]
      unfold defined
      by_cases hname : name = d.name
      · rw [if_pos hname, List.find?_cons_of_pos (by simp [hname]), Option.map_some, hgroup]
      · rw [if_neg hname, List.find?_cons_of_neg (by simp [Ne.symm hname])]
        exact h.groups name
    · rcases List.mem_cons.mp he with rfl | he
      · intro _ toks htoks
        rw [hmembers] at htoks
        cases htoks
      · exact hst e he
  · obtain ⟨ds, opened⟩ := st
    rw [hline, hread]
    cases opened with
    | false =>
      have hnone : st'.2 = none := h.current
      rw [hnone]
      cases ds with
      | nil => exact ⟨fun _ => ⟨st', rfl, h⟩, fun _ _ => hst⟩
      | cons d ds => exact ⟨fun _ => ⟨st', rfl, h⟩, fun _ _ => hst⟩
    | true =>
      cases ds with
      | nil => exact absurd rfl (h.first rfl)
      | cons d ds =>
        have hcurrent : st'.2 = some d.name := h.current
        have hget : get? st'.1 d.name = some d.group := by
          rw [h.groups, defined, List.find?_cons_of_pos (by simp)]
          rfl
        rw [hcurrent]
        dsimp only
        rw [hget]
        dsimp only
        constructor
        · intro hreadable
          have hitem : groupItem d.group toks = .ok (d.item d.group toks) :=
            Definition.groupItem_eq d.group_kind fun hnetwork =>
              hreadable _ List.mem_cons_self hnetwork toks
                (List.mem_append_right _ (List.mem_singleton_self toks))
          rw [hitem]
          refine ⟨_, rfl, fun name => ?_, rfl, fun _ => List.cons_ne_nil _ _⟩
          dsimp only
          rw [get?_set]
          unfold defined
          by_cases hname : name = d.name
          · rw [if_pos hname, List.find?_cons_of_pos (by simp [hname]), Option.map_some,
              Definition.group_concat]
          · rw [if_neg hname, List.find?_cons_of_neg (by simp [Ne.symm hname]), h.groups, defined,
              List.find?_cons_of_neg (by simp [Ne.symm hname])]
        · intro r hr
          obtain ⟨g, hg, -⟩ := bind_eq_ok hr
          have hitem := Definition.readable_of_groupItem (d := d) d.group_kind hg
          intro e he
          rcases List.mem_cons.mp he with rfl | he
          · intro hnetwork toks' htoks
            rcases List.mem_append.mp htoks with htoks | htoks
            · exact hst d List.mem_cons_self hnetwork toks' htoks
            · rw [List.mem_singleton.mp htoks]
              exact hitem hnetwork
          · exact hst e (List.mem_cons_of_mem _ he)

/-- The lines are read exactly where the addresses can be, and then the parser has read the
blocks. -/
theorem foldlM_objectGroupLine (lines : List String) (h : Reads st st') (hst : AllReadable st.1) :
    (AllReadable (lines.foldl definitionLine st).1 →
      ∃ r, lines.foldlM objectGroupLine st' = .ok r ∧ Reads (lines.foldl definitionLine st) r) ∧
      ∀ r, lines.foldlM objectGroupLine st' = .ok r →
        AllReadable (lines.foldl definitionLine st).1 := by
  induction lines generalizing st st' with
  | nil => exact ⟨fun _ => ⟨st', rfl, h⟩, fun _ _ => hst⟩
  | cons raw lines ih =>
    obtain ⟨hto, hof⟩ := objectGroupLine_reads h hst raw
    constructor
    · intro hreadable
      have hline : AllReadable (definitionLine st raw).1 := allReadable_of_foldl hreadable
      obtain ⟨r, hr, hreads⟩ := hto hline
      obtain ⟨r', hr', hreads'⟩ := (ih hreads hline).1 hreadable
      refine ⟨r', ?_, hreads'⟩
      rw [List.foldlM_cons, hr]
      exact hr'
    · intro r hr
      rw [List.foldlM_cons] at hr
      obtain ⟨r₁, hr₁, hr⟩ := bind_eq_ok hr
      have hline := hof r₁ hr₁
      obtain ⟨r₂, hr₂, hreads⟩ := hto hline
      rw [hr₁] at hr₂
      obtain rfl := Except.ok.inj hr₂
      exact (ih hreads hline).2 r hr

end Loop

/-! ## What a group has -/

namespace Definition

/-- The groups that a group refers to. -/
def refs (d : Definition) : List String :=
  if d.IsNetwork ∨ d.IsService then d.members.filterMap reference else []

def cubes (d : Definition) : List Cube := if d.IsNetwork then d.members.flatMap leadingCubes else []

/-- The ports that the lines of a group name, where they refer to no other group. -/
def ports (d : Definition) : List (ℤ × ℤ) :=
  if d.IsService then (d.members.filter fun toks => reference toks = none).flatMap namedPorts
  else []

variable {d : Definition}

theorem not_isNetwork_of_isService (h : d.IsService) : ¬ d.IsNetwork := by
  unfold IsNetwork
  rcases h with h | h
  · rw [h]
    decide
  · rw [h]
    decide

theorem group_eq (d : Definition) :
    d.group =
      { name := d.name
        kind := d.kind
        cubes := d.cubes
        ports := d.ports
        groupRefs := d.refs } := by
  have hfold : ∀ (members : List (List String)) (g : IOSObjectGroup),
      members.foldl d.item g =
        { g with
          cubes := g.cubes ++ (if d.IsNetwork then members.flatMap leadingCubes else [])
          ports := g.ports ++ (if d.IsService then
            (members.filter fun toks => reference toks = none).flatMap namedPorts else [])
          groupRefs := g.groupRefs ++
            (if d.IsNetwork ∨ d.IsService then members.filterMap reference else []) } := by
    intro members
    induction members with
    | nil =>
      intro g
      simp
    | cons toks members ih =>
      intro g
      rw [List.foldl_cons, ih]
      unfold item
      by_cases hnetwork : d.IsNetwork
      · have hservice : ¬ d.IsService := fun h => not_isNetwork_of_isService h hnetwork
        cases href : reference toks with
        | none => simp [hnetwork, hservice, href]
        | some name => simp [hnetwork, hservice, href]
      · by_cases hservice : d.IsService
        · cases href : reference toks with
          | none => simp [hnetwork, hservice, href]
          | some name => simp [hnetwork, hservice, href]
        · simp [hnetwork, hservice]
  unfold group cubes ports refs
  rw [hfold]
  simp

end Definition

section Resolved

variable {ds : List Definition} {groups : ObjectGroups}

/-- A group refers to another one. -/
def Refers (ds : List Definition) (a b : String) : Prop := ∃ d, defined ds a = some d ∧ b ∈ d.refs

/-- A group is another one or refers to it, through any number of others. -/
def ReachesGroup (ds : List Definition) : String → String → Prop :=
  Relation.ReflTransGen (Refers ds)

theorem next_groupEdges (groups : ObjectGroups) (a : String) :
    Worklist.next (groupEdges groups) a =
      ((get? groups a).map IOSObjectGroup.groupRefs).getD [] := by
  unfold Worklist.next groupEdges
  induction groups with
  | nil => rfl
  | cons p groups ih =>
    rw [List.map_cons, List.lookup_cons, get?_cons]
    by_cases ha : a = p.1
    · rw [if_pos ha, beq_iff_eq.mpr ha]
      rfl
    · rw [if_neg ha, beq_false_of_ne ha]
      exact ih

variable {a : String}

theorem refers_iff (h : ∀ name, get? groups name = (defined ds name).map Definition.group)
    {b : String} : Worklist.Refers (groupEdges groups) a b ↔ Refers ds a b := by
  unfold Worklist.Refers Refers
  rw [next_groupEdges, h]
  cases defined ds a with
  | none =>
    refine iff_of_false (fun hb => nomatch hb) ?_
    rintro ⟨d, hd, -⟩
    cases hd
  | some d =>
    rw [Option.map_some, Option.map_some, Option.getD_some, Definition.group_eq]
    constructor
    · exact fun hb => ⟨d, rfl, hb⟩
    · rintro ⟨e, he, hb⟩
      rw [Option.some.inj he]
      exact hb

theorem get?_resolveGroups (groups : ObjectGroups) (a : String) :
    get? (resolveGroups groups) a = (get? groups a).map fun g =>
      { g with
        name := a
        cubes := g.cubes ++ (subGroups groups (a, g)).flatMap IOSObjectGroup.cubes
        ports := g.ports ++ (subGroups groups (a, g)).flatMap IOSObjectGroup.ports } := by
  have hmap : ∀ (f : String → IOSObjectGroup → IOSObjectGroup) (d : ObjectGroups),
      get? (d.map fun p => (p.1, f p.1 p.2)) a = (get? d a).map (f a) := by
    intro f d
    induction d with
    | nil => rfl
    | cons p d ih =>
      rw [List.map_cons, get?_cons, get?_cons, ih]
      by_cases ha : a = p.1
      · rw [if_pos ha, if_pos ha, ha]
        rfl
      · rw [if_neg ha, if_neg ha]
  exact hmap (fun a g =>
    { g with
      name := a
      cubes := g.cubes ++ (subGroups groups (a, g)).flatMap IOSObjectGroup.cubes
      ports := g.ports ++ (subGroups groups (a, g)).flatMap IOSObjectGroup.ports }) groups

section

variable (h : ∀ name, get? groups name = (defined ds name).map Definition.group)

include h

theorem mem_subGroups_iff {d : Definition} (hd : defined ds a = some d) {g : IOSObjectGroup} :
    (g = d.group ∨ g ∈ subGroups groups (a, d.group)) ↔
      ∃ x e, ReachesGroup ds a x ∧ defined ds x = some e ∧ g = e.group := by
  have hrefs : ∀ {x}, x ∈ d.refs ↔ Refers ds a x := by
    intro x
    constructor
    · exact fun hx => ⟨d, hd, hx⟩
    · rintro ⟨e, he, hx⟩
      rw [hd] at he
      rwa [Option.some.inj he]
  have hiff : Worklist.Refers (groupEdges groups) = Refers ds := by
    funext x y
    exact propext (refers_iff h)
  have hexplore : ∀ {x}, x ∈ Worklist.explore (groupEdges groups) a d.group.groupRefs ↔
      x ≠ a ∧ ∃ q ∈ d.refs, ReachesGroup ds q x := by
    intro x
    rw [Worklist.mem_explore_iff, hiff, Definition.group_eq]
    · exact Iff.rfl
    · intro b hb
      rw [next_groupEdges, h, hd] at hb
      exact hb
  unfold subGroups
  rw [List.mem_filterMap]
  constructor
  · rintro (rfl | ⟨x, hx, hg⟩)
    · exact ⟨a, d, .refl, hd, rfl⟩
    · obtain ⟨-, q, hq, hreach⟩ := hexplore.mp hx
      rw [h] at hg
      obtain ⟨e, he, rfl⟩ := Option.map_eq_some_iff.mp hg
      exact ⟨x, e, .head (hrefs.mp hq) hreach, he, rfl⟩
  · rintro ⟨x, e, hreach, he, rfl⟩
    by_cases hx : x = a
    · rw [hx, hd] at he
      rw [Option.some.inj he]
      exact .inl rfl
    · rcases Relation.ReflTransGen.cases_head hreach with hax | ⟨q, hq, hqx⟩
      · exact absurd hax.symm hx
      · refine .inr ⟨x, hexplore.mpr ⟨hx, q, hrefs.mpr hq, hqx⟩, ?_⟩
        rw [h, he]
        rfl

/-- A resolved group is of its kind, and has the cubes and the ports of the groups that it
reaches. -/
theorem resolved_of_defined {d : Definition} (hd : defined ds a = some d) :
    ∃ g, get? (resolveGroups groups) a = some g ∧ g.kind = d.kind ∧
      (∀ c, c ∈ g.cubes ↔ ∃ x e, ReachesGroup ds a x ∧ defined ds x = some e ∧ c ∈ e.cubes) ∧
      ∀ p, p ∈ g.ports ↔ ∃ x e, ReachesGroup ds a x ∧ defined ds x = some e ∧ p ∈ e.ports := by
  have hget := get?_resolveGroups groups a
  rw [h, hd, Option.map_some, Option.map_some] at hget
  refine ⟨_, hget, d.group_kind, fun c => ?_, fun p => ?_⟩
  · dsimp only
    rw [List.mem_append, List.mem_flatMap]
    constructor
    · rintro (hc | ⟨g, hg, hc⟩)
      · rw [Definition.group_eq] at hc
        exact ⟨a, d, .refl, hd, hc⟩
      · obtain ⟨x, e, hreach, he, rfl⟩ := (mem_subGroups_iff h hd).mp (.inr hg)
        rw [Definition.group_eq] at hc
        exact ⟨x, e, hreach, he, hc⟩
    · rintro ⟨x, e, hreach, he, hc⟩
      rcases (mem_subGroups_iff h hd).mpr ⟨x, e, hreach, he, rfl⟩ with hg | hg
      · rw [← hg, Definition.group_eq]
        exact .inl hc
      · refine .inr ⟨e.group, hg, ?_⟩
        rw [Definition.group_eq]
        exact hc
  · dsimp only
    rw [List.mem_append, List.mem_flatMap]
    constructor
    · rintro (hp | ⟨g, hg, hp⟩)
      · rw [Definition.group_eq] at hp
        exact ⟨a, d, .refl, hd, hp⟩
      · obtain ⟨x, e, hreach, he, rfl⟩ := (mem_subGroups_iff h hd).mp (.inr hg)
        rw [Definition.group_eq] at hp
        exact ⟨x, e, hreach, he, hp⟩
    · rintro ⟨x, e, hreach, he, hp⟩
      rcases (mem_subGroups_iff h hd).mpr ⟨x, e, hreach, he, rfl⟩ with hg | hg
      · rw [← hg, Definition.group_eq]
        exact .inl hp
      · refine .inr ⟨e.group, hg, ?_⟩
        rw [Definition.group_eq]
        exact hp

theorem resolved_of_not_defined (hd : defined ds a = none) :
    get? (resolveGroups groups) a = none := by
  rw [get?_resolveGroups, h, hd]
  rfl

end

end Resolved

/-- The parser returns the groups exactly where every address that a member line leads with can be
read. -/
theorem parseObjectGroups_iff (lines : List String) :
    (AllReadable (written lines) ↔ ∃ groups, parseObjectGroups lines = .ok groups) ∧
      ∀ groups, parseObjectGroups lines = .ok groups → ∃ raw : ObjectGroups,
        (∀ name, get? raw name = (defined (written lines) name).map Definition.group) ∧
          groups = resolveGroups raw := by
  have hstart : Reads ([], false) ([], none) := ⟨fun _ => rfl, rfl, fun h => nomatch h⟩
  obtain ⟨hto, hof⟩ := foldlM_objectGroupLine lines hstart fun d hd => nomatch hd
  have hrun : ∀ groups, parseObjectGroups lines = .ok groups →
      ∃ r, lines.foldlM objectGroupLine ([], none) = .ok r ∧ groups = resolveGroups r.1 := by
    intro groups hgroups
    obtain ⟨r, hr, hr'⟩ := bind_eq_ok hgroups
    exact ⟨r, hr, (Except.ok.inj hr').symm⟩
  constructor
  · constructor
    · intro hreadable
      obtain ⟨r, hr, -⟩ := hto hreadable
      refine ⟨resolveGroups r.1, ?_⟩
      unfold parseObjectGroups
      rw [hr]
      rfl
    · rintro ⟨groups, hgroups⟩
      obtain ⟨r, hr, -⟩ := hrun groups hgroups
      exact hof r hr
  · intro groups hgroups
    obtain ⟨r, hr, rfl⟩ := hrun groups hgroups
    obtain ⟨r', hr', hreads⟩ := hto (hof r hr)
    rw [hr] at hr'
    obtain rfl := Except.ok.inj hr'
    exact ⟨r.1, hreads.groups, rfl⟩

end SentinelNet.PolicyTest
