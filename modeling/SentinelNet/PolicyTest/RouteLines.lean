import SentinelNet.PolicyTest.IosEnvironment

/-!
# A configuration without its VRF route lines

`ip route vrf NAME …` lines are commands of one line.  Taking them out of a configuration takes
their blocks out of the block list and leaves the other blocks, the object groups and the
interfaces as they are; the route table loses some of its static routes.

The two parser loops that go over the lines forget the open block, or the open group, at a route
line.  Without the line they forget it at the next command, so that nothing in between may be
indented: this is `oneLine`.

* `extractBlocks_filter`, `parseObjectGroups_filter`: the two loops over the lines.
* `parseIosLines_filter`: the configuration with and without the lines.
-/

namespace SentinelNet.PolicyTest

open PyText

/-! ## Lines -/

/-- The third word of a command is `vrf`. -/
def isVrfHeader (s : String) : Bool := ((split s)[2]?).any fun tok => decide (lower tok = "vrf")

/-- A line `ip route vrf NAME …` of the configuration. -/
def isVrfRoute (line : String) : Bool :=
  decide (indent line = 0) && startsWith (lower (strip line)) "ip route " &&
    isVrfHeader (strip line)

/-- A line that is neither blank nor a comment. -/
def isCommand (line : String) : Bool := decide (strip line ≠ "") && !startsWith (strip line) "!"

/-- The first command of the lines stands at the top level. -/
def nextTop (lines : List String) : Bool :=
  (lines.find? isCommand).all fun line => decide (indent line = 0)

/-- The VRF route lines are commands of one line: no indented line belongs to one. -/
def oneLine : List String → Bool
  | [] => true
  | line :: lines => (!isVrfRoute line || nextTop lines) && oneLine lines

variable {lines : List String}

theorem oneLine_cons {line : String} :
    oneLine (line :: lines) = true ↔
      (isVrfRoute line = true → nextTop lines = true) ∧ oneLine lines = true := by
  rw [oneLine, Bool.and_eq_true]
  cases isVrfRoute line <;> simp

def dropVrfRoutes (lines : List String) : List String := lines.filter fun line => !isVrfRoute line

def Block.isVrf (b : Block) : Bool := decide (b.kind = .staticRoute) && isVrfHeader b.header

/-- The blocks without those of VRF route lines. -/
def dropVrfBlocks (blocks : List Block) : List Block := blocks.filter fun b => !b.isVrf

theorem dropVrfBlocks_append (bs bs' : List Block) :
    dropVrfBlocks (bs ++ bs') = dropVrfBlocks bs ++ dropVrfBlocks bs' := List.filter_append ..

theorem startsWith_of_startsWith {s p q : String} (h : startsWith s p)
    (hpq : ¬ p.toList <+: q.toList) (hqp : ¬ q.toList <+: p.toList) : startsWith s q = false := by
  by_contra hq
  rw [Bool.not_eq_false] at hq
  rcases List.prefix_or_prefix_of_prefix (List.isPrefixOf_iff_prefix.mp h)
    (List.isPrefixOf_iff_prefix.mp hq) with hp | hp
  · exact hpq hp
  · exact hqp hp

theorem route_line {s : String} (h : startsWith (lower s) "ip route ") :
    s ≠ "" ∧ startsWith s "!" = false ∧ startsWith (lower s) "object-group " = false ∧
      openBlock s = none ∧ lineBlock s = some ⟨.staticRoute, s, []⟩ := by
  have hother {q : String} (hpq : ¬ "ip route ".toList <+: q.toList)
      (hqp : ¬ q.toList <+: "ip route ".toList) : startsWith (lower s) q = false :=
    startsWith_of_startsWith h hpq hqp
  refine ⟨?_, ?_, hother (by decide) (by decide), ?_, ?_⟩
  · rintro rfl
    exact absurd h (by decide)
  · by_contra hbang
    rw [Bool.not_eq_false] at hbang
    obtain ⟨t, ht⟩ := List.isPrefixOf_iff_prefix.mp hbang
    have hlow : startsWith (lower s) "!" = true := by
      have hchars : (lower s).toList = s.toList.map Char.toLower := by
        rw [lower, String.toList_ofList]
      rw [startsWith, List.isPrefixOf_iff_prefix, hchars, ← ht, List.map_append]
      exact ⟨t.map Char.toLower, rfl⟩
    rw [hother (by decide) (by decide)] at hlow
    exact Bool.false_ne_true hlow
  · unfold openBlock
    dsimp only
    rw [hother (by decide) (by decide), hother (by decide) (by decide),
      hother (by decide) (by decide), hother (by decide) (by decide)]
    rfl
  · unfold lineBlock
    dsimp only
    rw [hother (by decide) (by decide), h]
    rfl

theorem isVrfRoute_iff {line : String} :
    isVrfRoute line = true ↔ indent line = 0 ∧
      startsWith (lower (strip line)) "ip route " = true ∧ isVrfHeader (strip line) = true := by
  rw [isVrfRoute, Bool.and_eq_true, Bool.and_eq_true, decide_eq_true_eq, and_assoc]

theorem isCommand_iff {line : String} :
    isCommand line = true ↔ ¬ (strip line = "" ∨ startsWith (strip line) "!" = true) := by
  rw [isCommand, Bool.and_eq_true, decide_eq_true_eq, Bool.not_eq_true', not_or, Bool.not_eq_true]

theorem isCommand_of_isVrfRoute {line : String} (h : isVrfRoute line) :
    isCommand line = true := by
  obtain ⟨hne, hbang, -⟩ := route_line (isVrfRoute_iff.mp h).2.1
  rw [isCommand_iff, hbang]
  exact not_or.mpr ⟨hne, by decide⟩

theorem nextTop_cons {line : String} (h : nextTop (line :: lines)) :
    if isCommand line = true then indent line = 0 else nextTop lines = true := by
  rw [nextTop, List.find?_cons] at h
  split
  · next hc =>
    rw [hc] at h
    simpa using h
  · next hc =>
    rw [Bool.not_eq_true] at hc
    rw [hc] at h
    exact h

/-! ## Blocks -/

variable {b : Block}

theorem openBlock_kind {s : String} (h : openBlock s = some b) : b.kind ≠ .staticRoute := by
  unfold openBlock at h
  dsimp only at h
  split_ifs at h
  all_goals
    obtain rfl := Option.some.inj h
    exact fun hk => BlockType.noConfusion hk

theorem Block.isVrf_of_kind (h : b.kind ≠ .staticRoute) : b.isVrf = false := by
  rw [Block.isVrf, decide_eq_false h, Bool.false_and]

theorem dropVrfBlocks_lineBlock {line : String} (hind : indent line = 0)
    (h : isVrfRoute line = false) :
    dropVrfBlocks (lineBlock (strip line)).toList = (lineBlock (strip line)).toList := by
  rw [dropVrfBlocks, List.filter_eq_self]
  intro b hb
  rw [Option.mem_toList] at hb
  unfold lineBlock at hb
  dsimp only at hb
  split_ifs at hb with hacl hroute
  · obtain rfl := Option.some.inj hb
    rfl
  · obtain rfl := Option.some.inj hb
    have hheader : isVrfHeader (strip line) = false := by
      rcases hv : isVrfHeader (strip line) with _ | _
      · rfl
      · rw [isVrfRoute_iff.mpr ⟨hind, hroute, hv⟩] at h
        exact absurd h (by decide)
    rw [Block.isVrf, hheader, Bool.and_false]
    rfl

/-- The block loop over a configuration and over the one without VRF route lines: they agree, or
the first one has closed a block that the second one closes at the next command. -/
def Aligned (rest : List String) (st st' : List Block × Option Block) : Prop :=
  (st'.1 = dropVrfBlocks st.1 ∧ st'.2 = st.2) ∨
    (st.2 = none ∧ nextTop rest = true ∧ st'.1 ++ st'.2.toList = dropVrfBlocks st.1)

def OpenKind (current : Option Block) : Prop := ∀ b, current = some b → b.kind ≠ .staticRoute

theorem blockLine_skip {line : String} (h : isCommand line = false)
    (st : List Block × Option Block) : blockLine st line = st := by
  have hc : strip line = "" ∨ startsWith (strip line) "!" = true := by
    by_contra hno
    rw [not_or, Bool.not_eq_true] at hno
    rw [isCommand, decide_eq_true hno.1, hno.2] at h
    exact absurd h (by decide)
  unfold blockLine
  exact if_pos hc

theorem blockLine_top {line : String} (h : isCommand line) (hind : indent line = 0)
    (st : List Block × Option Block) :
    blockLine st line =
      (st.1 ++ st.2.toList ++ (lineBlock (strip line)).toList, openBlock (strip line)) := by
  unfold blockLine
  dsimp only
  rw [if_neg (isCommand_iff.mp h), if_pos hind]

theorem blockLine_nested {line : String} (h : isCommand line = true) (hind : indent line ≠ 0)
    (st : List Block × Option Block) :
    blockLine st line =
      (st.1, st.2.map fun b => { b with body := b.body ++ [strip line] }) := by
  unfold blockLine
  dsimp only
  rw [if_neg (isCommand_iff.mp h), if_neg hind]

variable {st : List Block × Option Block}

theorem blockLine_openKind (h : OpenKind st.2) (line : String) :
    OpenKind (blockLine st line).2 := by
  by_cases hcmd : isCommand line = true
  · by_cases hind : indent line = 0
    · have hsnd : (blockLine st line).2 = openBlock (strip line) := by
        rw [blockLine_top hcmd hind]
      rw [hsnd]
      intro b hb
      exact openBlock_kind hb
    · rw [blockLine_nested hcmd hind]
      intro b hb
      obtain ⟨b', hb', rfl⟩ := Option.map_eq_some_iff.mp hb
      exact h b' hb'
  · rw [Bool.not_eq_true] at hcmd
    rw [blockLine_skip hcmd]
    exact h

theorem Aligned.all {rest : List String} {st' : List Block × Option Block} (ho : OpenKind st.2)
    (h : Aligned rest st st') :
    st'.1 ++ st'.2.toList = dropVrfBlocks (st.1 ++ st.2.toList) := by
  rcases h with ⟨h₁, h₂⟩ | ⟨hnone, -, h⟩
  · have hopen : dropVrfBlocks st.2.toList = st.2.toList := by
      rw [dropVrfBlocks, List.filter_eq_self]
      intro b hb
      rw [Block.isVrf_of_kind (ho b (Option.mem_toList.mp hb))]
      rfl
    rw [h₁, h₂, dropVrfBlocks_append, hopen]
  · rw [h, hnone, Option.toList_none, List.append_nil]

theorem Aligned.line {line : String} {rest : List String} {st st' : List Block × Option Block}
    (ho : OpenKind st.2) (h : Aligned (line :: rest) st st') (hv : isVrfRoute line = false) :
    Aligned rest (blockLine st line) (blockLine st' line) := by
  by_cases hcmd : isCommand line = true
  · by_cases hind : indent line = 0
    · rw [blockLine_top hcmd hind, blockLine_top hcmd hind]
      refine Or.inl ⟨?_, rfl⟩
      rw [dropVrfBlocks_append, dropVrfBlocks_lineBlock hind hv, h.all ho]
    · rw [blockLine_nested hcmd hind, blockLine_nested hcmd hind]
      rcases h with ⟨h₁, h₂⟩ | ⟨-, htop, -⟩
      · exact Or.inl ⟨h₁, by rw [h₂]⟩
      · have hnext := nextTop_cons htop
        rw [if_pos hcmd] at hnext
        exact absurd hnext hind
  · rw [Bool.not_eq_true] at hcmd
    rw [blockLine_skip hcmd, blockLine_skip hcmd]
    rcases h with h | ⟨hnone, htop, h⟩
    · exact Or.inl h
    · have hnext := nextTop_cons htop
      rw [if_neg (by rw [hcmd]; decide)] at hnext
      exact Or.inr ⟨hnone, hnext, h⟩

theorem Aligned.vrfRoute {line : String} {rest : List String} {st' : List Block × Option Block}
    (ho : OpenKind st.2) (h : Aligned (line :: rest) st st') (hv : isVrfRoute line)
    (hnext : nextTop rest) : Aligned rest (blockLine st line) st' := by
  obtain ⟨hind, hroute, hheader⟩ := isVrfRoute_iff.mp hv
  obtain ⟨-, -, -, hopen, hline⟩ := route_line hroute
  have hdrop : dropVrfBlocks [⟨.staticRoute, strip line, []⟩] = [] := by
    rw [dropVrfBlocks, List.filter_eq_nil_iff]
    intro b hb
    obtain rfl := List.mem_singleton.mp hb
    rw [Block.isVrf, hheader]
    simp
  rw [blockLine_top (isCommand_of_isVrfRoute hv) hind, hopen, hline]
  refine Or.inr ⟨rfl, hnext, ?_⟩
  rw [h.all ho, Option.toList_some, dropVrfBlocks_append (st.1 ++ st.2.toList), hdrop,
    List.append_nil]

/-- The blocks of the configuration without VRF route lines. -/
theorem extractBlocks_filter (h : oneLine lines) :
    extractBlocks (dropVrfRoutes lines) = dropVrfBlocks (extractBlocks lines) := by
  have hrun : ∀ (lines : List String) (st st' : List Block × Option Block), oneLine lines = true →
      OpenKind st.2 → Aligned lines st st' →
        ((dropVrfRoutes lines).foldl blockLine st').1 ++
            ((dropVrfRoutes lines).foldl blockLine st').2.toList =
          dropVrfBlocks ((lines.foldl blockLine st).1 ++ (lines.foldl blockLine st).2.toList) := by
    intro lines
    induction lines with
    | nil => exact fun st st' _ ho ha => ha.all ho
    | cons line lines ih =>
      intro st st' hone ho ha
      obtain ⟨hone, hrest⟩ := oneLine_cons.mp hone
      rw [List.foldl_cons, dropVrfRoutes]
      rcases hv : isVrfRoute line with _ | _
      · rw [List.filter_cons_of_pos (by simp [hv]), List.foldl_cons]
        exact ih _ _ hrest (blockLine_openKind ho line) (ha.line ho hv)
      · rw [List.filter_cons_of_neg (by simp [hv])]
        exact ih _ _ hrest (blockLine_openKind ho line) (ha.vrfRoute ho hv (hone hv))
  exact hrun lines ([], none) ([], none) h (fun b hb => absurd hb (by simp))
    (Or.inl ⟨rfl, rfl⟩)

/-! ## Object groups -/

theorem objectGroupLine_top {line : String} (h : isCommand line) (hind : indent line = 0)
    (groups : ObjectGroups) (current current' : Option String) :
    objectGroupLine (groups, current) line = objectGroupLine (groups, current') line := by
  have hc := isCommand_iff.mp h
  rw [not_or] at hc
  unfold objectGroupLine
  dsimp only
  rw [if_neg hc.1, if_neg hc.2, if_neg hc.1, if_neg hc.2, if_pos hind, if_pos hind]

theorem objectGroupLine_skip {line : String} (h : isCommand line = false) (groups : ObjectGroups)
    (current : Option String) :
    objectGroupLine (groups, current) line =
      .ok (groups, if strip line = "" then current else none) := by
  unfold objectGroupLine
  dsimp only
  by_cases he : strip line = ""
  · rw [if_pos he, if_pos he]
    rfl
  · have hbang : startsWith (strip line) "!" = true := by
      by_contra hno
      rw [isCommand, decide_eq_true he, Bool.not_eq_true] at *
      rw [hno] at h
      exact absurd h (by decide)
    rw [if_neg he, if_neg he, if_pos hbang]
    rfl

theorem objectGroupLine_vrfRoute {line : String} (h : isVrfRoute line)
    (groups : ObjectGroups) (current : Option String) :
    objectGroupLine (groups, current) line = .ok (groups, none) := by
  obtain ⟨hind, hroute, -⟩ := isVrfRoute_iff.mp h
  obtain ⟨hne, hbang, hgroup, -⟩ := route_line hroute
  unfold objectGroupLine
  dsimp only
  rw [if_neg hne, if_neg (by rw [hbang]; decide), if_neg (by rw [hgroup]; decide), if_pos hind]
  rfl

/-- The groups of the configuration without VRF route lines. -/
theorem parseObjectGroups_filter {groups : ObjectGroups}
    (hone : oneLine lines) (h : parseObjectGroups lines = .ok groups) :
    parseObjectGroups (dropVrfRoutes lines) = .ok groups := by
  -- the second loop may have a group open that the first one has closed
  have hrun : ∀ (lines : List String) (g : ObjectGroups) (c c' : Option String)
      (r : ObjectGroups × Option String), oneLine lines = true →
      (c' = c ∨ c = none ∧ nextTop lines = true) →
      lines.foldlM objectGroupLine (g, c) = .ok r →
        ∃ r', (dropVrfRoutes lines).foldlM objectGroupLine (g, c') = .ok r' ∧ r'.1 = r.1 := by
    intro lines
    induction lines with
    | nil =>
      intro g c c' r _ _ hfold
      obtain rfl := Except.ok.inj hfold
      exact ⟨(g, c'), rfl, rfl⟩
    | cons line lines ih =>
      intro g c c' r hone hc hfold
      obtain ⟨honeLine, hrest⟩ := oneLine_cons.mp hone
      rw [List.foldlM_cons] at hfold
      obtain ⟨⟨g₁, c₁⟩, hstep, hfold⟩ := bind_eq_ok hfold
      rcases hv : isVrfRoute line with _ | _
      · rw [dropVrfRoutes, List.filter_cons_of_pos (by simp [hv]), List.foldlM_cons]
        have hgo {c₁' : Option String} (hline : objectGroupLine (g, c') line = .ok (g₁, c₁'))
            (hcur : c₁' = c₁ ∨ c₁ = none ∧ nextTop lines = true) :
            ∃ r', (objectGroupLine (g, c') line >>= fun st =>
              (lines.filter fun l => !isVrfRoute l).foldlM objectGroupLine st) = .ok r' ∧
                r'.1 = r.1 := by
          rw [hline]
          exact ih g₁ c₁ c₁' r hrest hcur hfold
        rcases hc with rfl | ⟨rfl, htop⟩
        · exact hgo hstep (Or.inl rfl)
        · have hnext := nextTop_cons htop
          by_cases hcmd : isCommand line = true
          · rw [if_pos hcmd] at hnext
            exact hgo ((objectGroupLine_top hcmd hnext g c' none).trans hstep) (Or.inl rfl)
          · rw [if_neg hcmd] at hnext
            rw [Bool.not_eq_true] at hcmd
            rw [objectGroupLine_skip hcmd] at hstep
            obtain ⟨rfl, rfl⟩ := Prod.mk.inj (Except.ok.inj hstep)
            refine hgo (objectGroupLine_skip hcmd g c') ?_
            exact Or.inr ⟨ite_self none, hnext⟩
      · rw [dropVrfRoutes, List.filter_cons_of_neg (by simp [hv])]
        rw [objectGroupLine_vrfRoute hv] at hstep
        obtain ⟨rfl, rfl⟩ := Prod.mk.inj (Except.ok.inj hstep)
        exact ih g none c' r hrest (Or.inr ⟨rfl, honeLine hv⟩) hfold
  rw [parseObjectGroups] at h ⊢
  obtain ⟨⟨g, c⟩, hfold, h⟩ := bind_eq_ok h
  obtain ⟨⟨g', c'⟩, hfold', rfl⟩ := hrun lines [] none none _ hone (Or.inl rfl) hfold
  rw [hfold']
  exact h

/-! ## The block loop -/

/-- Two states of the block loop, the second one with some of the static routes only. -/
structure FewerStatics (st st' : ParseState) : Prop where
  acls : st'.acls = st.acls
  interfaces : st'.interfaces = st.interfaces
  connectedRoutes : st'.connectedRoutes = st.connectedRoutes
  dynamicProtocols : st'.dynamicProtocols = st.dynamicProtocols
  staticRoutes : st'.staticRoutes.Sublist st.staticRoutes

variable {objGroups : ObjectGroups} {st' s : ParseState}

theorem processBlock_fewer {st : ParseState}
    (hst : FewerStatics st st') (h : processBlock objGroups st b = .ok s) :
    ∃ s', processBlock objGroups st' b = .ok s' ∧ FewerStatics s s' := by
  obtain ⟨acls, interfaces, connected, statics, protocols⟩ := st
  obtain ⟨acls', interfaces', connected', statics', protocols'⟩ := st'
  obtain ⟨rfl, rfl, rfl, rfl, hsub⟩ := hst
  dsimp only at hsub
  unfold processBlock at h ⊢
  split at h
  · split at h
    · obtain rfl := Except.ok.inj h
      exact ⟨_, rfl, rfl, rfl, rfl, rfl, hsub⟩
    · obtain rfl := Except.ok.inj h
      exact ⟨_, rfl, rfl, rfl, rfl, rfl, hsub⟩
  · obtain rfl := Except.ok.inj h
    exact ⟨_, rfl, rfl, rfl, rfl, rfl, hsub⟩
  · obtain rfl := Except.ok.inj h
    exact ⟨_, rfl, rfl, rfl, rfl, rfl, hsub⟩
  · obtain ⟨info, hinfo, h⟩ := bind_eq_ok h
    obtain rfl := Except.ok.inj h
    dsimp only
    rw [hinfo]
    exact ⟨_, rfl, rfl, rfl, rfl, rfl, hsub⟩
  · obtain rfl := Except.ok.inj h
    exact ⟨_, rfl, rfl, rfl, rfl, rfl, hsub.append (List.Sublist.refl _)⟩
  · obtain rfl := Except.ok.inj h
    exact ⟨_, rfl, rfl, rfl, rfl, rfl, hsub⟩

theorem processBlock_vrf {st : ParseState}
    (hst : FewerStatics st st') (hb : b.isVrf) (h : processBlock objGroups st b = .ok s) :
    FewerStatics s st' := by
  rw [Block.isVrf, Bool.and_eq_true, decide_eq_true_eq] at hb
  unfold processBlock at h
  rw [hb.1] at h
  obtain rfl := Except.ok.inj h
  exact ⟨hst.acls, hst.interfaces, hst.connectedRoutes, hst.dynamicProtocols,
    hst.staticRoutes.trans (List.sublist_append_left _ _)⟩

theorem foldlM_processBlock_filter {blocks : List Block}
    {st : ParseState} (hst : FewerStatics st st')
    (h : blocks.foldlM (processBlock objGroups) st = .ok s) :
    ∃ s', (dropVrfBlocks blocks).foldlM (processBlock objGroups) st' = .ok s' ∧
      FewerStatics s s' := by
  induction blocks generalizing st st' with
  | nil =>
    obtain rfl := Except.ok.inj h
    exact ⟨st', rfl, hst⟩
  | cons b blocks ih =>
    rw [List.foldlM_cons] at h
    obtain ⟨s₁, hstep, h⟩ := bind_eq_ok h
    rcases hb : b.isVrf with _ | _
    · obtain ⟨s₁', hstep', hs⟩ := processBlock_fewer hst hstep
      obtain ⟨s', hfold, hs'⟩ := ih hs h
      refine ⟨s', ?_, hs'⟩
      rw [dropVrfBlocks, List.filter_cons_of_pos (by simp [hb]), List.foldlM_cons, hstep']
      exact hfold
    · rw [dropVrfBlocks, List.filter_cons_of_neg (by simp [hb])]
      exact ih (processBlock_vrf hst hb hstep) h

theorem mapM_sublist {α β : Type} {f : α → Py β} {l l' : List α} (hsub : l'.Sublist l)
    {r : List β} (h : l.mapM f = .ok r) : ∃ r', l'.mapM f = .ok r' ∧ r'.Sublist r := by
  induction hsub generalizing r with
  | slnil => exact ⟨r, h, List.Sublist.refl r⟩
  | @cons l' l a _ ih =>
    rw [List.mapM_cons] at h
    obtain ⟨b, -, h⟩ := bind_eq_ok h
    obtain ⟨bs, hbs, h⟩ := bind_eq_ok h
    obtain rfl := Except.ok.inj h
    obtain ⟨r', hr', hs⟩ := ih hbs
    exact ⟨r', hr', hs.cons b⟩
  | @cons_cons l' l a _ ih =>
    rw [List.mapM_cons] at h
    obtain ⟨b, hb, h⟩ := bind_eq_ok h
    obtain ⟨bs, hbs, h⟩ := bind_eq_ok h
    obtain rfl := Except.ok.inj h
    obtain ⟨r', hr', hs⟩ := ih hbs
    refine ⟨b :: r', ?_, hs.cons_cons b⟩
    rw [List.mapM_cons, hb, hr']
    rfl

/-! ## The environment -/

/-- Two environments that differ in static routes only: the second one has some of the routes of
the first one, and all connected subnets. -/
structure SameButStatics (env env' : IOSPolicyEnvironment) : Prop where
  acls : env'.acls = env.acls
  interfaces : env'.interfaces = env.interfaces
  connected : env'.routeTable.connectedSubnets = env.routeTable.connectedSubnets
  routes : env'.routeTable.routes.Sublist env.routeTable.routes

/-- The configuration without VRF route lines has the same environment but for static routes. -/
theorem parseIosLines_filter {env : IOSPolicyEnvironment}
    (hone : oneLine lines) (h : parseIosLines lines = .ok env) :
    ∃ env', parseIosLines (dropVrfRoutes lines) = .ok env' ∧ SameButStatics env env' := by
  obtain ⟨objGroups, st, resolved, hgroups, hst, hresolved, rfl⟩ := parseIosLines_eq_ok_iff.mp h
  obtain ⟨st', hst', hfewer⟩ :=
    foldlM_processBlock_filter (⟨rfl, rfl, rfl, rfl, List.Sublist.refl _⟩ : FewerStatics {} {}) hst
  rw [← extractBlocks_filter hone] at hst'
  obtain ⟨resolved', hresolved', hsub⟩ := mapM_sublist hfewer.staticRoutes hresolved
  rw [← hfewer.connectedRoutes] at hresolved'
  have hsubnets := (foldlM_processBlock_sound hst).connectedSubnets hresolved objGroups
  have hsubnets' := (foldlM_processBlock_sound hst').connectedSubnets hresolved' objGroups
  refine ⟨st'.environment objGroups resolved', parseIosLines_eq_ok_iff.mpr
    ⟨objGroups, st', resolved', parseObjectGroups_filter hone hgroups, hst', hresolved', rfl⟩,
    hfewer.acls, hfewer.interfaces, ?_, ?_⟩
  · exact hsubnets'.trans (hfewer.connectedRoutes.trans hsubnets.symm)
  · change (st'.connectedRoutes ++ resolved').Sublist (st.connectedRoutes ++ resolved)
    rw [hfewer.connectedRoutes]
    exact (List.Sublist.refl _).append hsub

end SentinelNet.PolicyTest
