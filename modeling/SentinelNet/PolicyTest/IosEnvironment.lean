import SentinelNet.PolicyTest.Ios

/-!
# What a parsed IOS configuration satisfies

The parser of a running configuration goes through its blocks and keeps a state; what every block
preserves holds of the environment in the end.

* `parseIosConfig_sound`: the same of the environment.
-/

namespace SentinelNet.PolicyTest

open PyText

theorem foldlM_invariant {α σ : Type} {f : σ → α → Py σ} {P : σ → Prop} {l : List α} {s s' : σ}
    (hstep : ∀ a ∈ l, ∀ s s', P s → f s a = .ok s' → P s') (h : l.foldlM f s = .ok s')
    (hs : P s) : P s' := by
  induction l generalizing s with
  | nil =>
    obtain rfl := Except.ok.inj h
    exact hs
  | cons a l ih =>
    rw [List.foldlM_cons] at h
    obtain ⟨s₁, hs₁, h⟩ := bind_eq_ok h
    exact ih (List.forall_mem_cons.mp hstep).2 h
      (hstep a List.mem_cons_self s s₁ hs hs₁)

/-! ## Entries -/

/-- An entry with addresses on both sides that permits or denies when it was read in full. -/
structure Rule.WellFormed (r : Rule) : Prop where
  srcIps : r.fields.srcIps ≠ []
  dstIps : r.fields.dstIps ≠ []
  action : r.isDecidable = true → r.action = .permit ∨ r.action = .deny

variable {objGroups : ObjectGroups} {toks : List String}

theorem consumeIpSpec_ne_nil {rest reasons : List String}
    {cubes : List Cube} (h : consumeIpSpec objGroups toks = .ok (some (cubes, rest, reasons))) :
    cubes ≠ [] := by
  have hone {x : Py Cube} {rest' : List String}
      (h : (do let c ← x; pure (some ([c], rest', []))) =
        (.ok (some (cubes, rest, reasons)) : Py (Option (List Cube × List String × List String)))) :
      cubes ≠ [] := by
    obtain ⟨c, -, h⟩ := bind_eq_ok h
    obtain ⟨rfl, -⟩ := Prod.mk.inj (Option.some.inj (Except.ok.inj h))
    exact List.cons_ne_nil c []
  have hpure {cubes' : List Cube} {rest' reasons' : List String} (hne : cubes' ≠ [])
      (h : (pure (some (cubes', rest', reasons')) : Py _) =
        .ok (some (cubes, rest, reasons))) : cubes ≠ [] := by
    obtain ⟨rfl, -⟩ := Prod.mk.inj (Option.some.inj (Except.ok.inj h))
    exact hne
  have hnone (h : (pure none : Py (Option (List Cube × List String × List String))) =
      .ok (some (cubes, rest, reasons))) : cubes ≠ [] :=
    absurd (Except.ok.inj h) (by simp)
  cases toks with
  | nil => exact hnone h
  | cons t args =>
    unfold consumeIpSpec at h
    dsimp only at h
    split_ifs at h
    · exact hpure (List.cons_ne_nil _ _) h
    · cases args with
      | nil => exact hnone h
      | cons ip rest' =>
        dsimp only at h
        split_ifs at h
        · exact hone h
        · exact hnone h
    · cases args with
      | nil => exact hnone h
      | cons gname rest' =>
        dsimp only at h
        split_ifs at h with hcubes
        · exact hpure hcubes h
        · exact hpure (List.cons_ne_nil _ _) h
    · cases args with
      | nil => exact hone h
      | cons wild rest' =>
        dsimp only at h
        split_ifs at h
        · exact hone h
        · exact hone h
    · exact hnone h

theorem opaqueRule_wellFormed (ruleId : String) (action : Action) (rawLine reason : String) :
    (opaqueRule ruleId action rawLine reason).WellFormed :=
  ⟨List.cons_ne_nil _ _, List.cons_ne_nil _ _, fun h => absurd h (by simp [Rule.isDecidable,
    opaqueRule])⟩

variable {ruleId rawLine : String} {action : Action} {r : Rule}

theorem standardRule_wellFormed (hact : action = .permit ∨ action = .deny)
    (h : standardRule ruleId action rawLine objGroups toks = .ok r) : r.WellFormed := by
  rw [standardRule] at h
  obtain ⟨_ | ⟨cubes, rest, reasons⟩, hspec, h⟩ := bind_eq_ok h
  · obtain rfl := Except.ok.inj h
    exact opaqueRule_wellFormed ..
  · obtain rfl := Except.ok.inj h
    exact ⟨consumeIpSpec_ne_nil hspec, List.cons_ne_nil _ _, fun _ => hact⟩

theorem extendedSpecs_wellFormed {protoTok : String} {protos : Option (List ℤ)}
    (hact : action = .permit ∨ action = .deny)
    (h : extendedSpecs ruleId action rawLine objGroups protoTok protos toks = .ok r) :
    r.WellFormed := by
  rw [extendedSpecs] at h
  obtain ⟨_ | ⟨srcCubes, toks₁, srcReasons⟩, hsrc, h⟩ := bind_eq_ok h
  · obtain rfl := Except.ok.inj h
    exact opaqueRule_wellFormed ..
  · obtain ⟨_ | ⟨dstCubes, toks₂, dstReasons⟩, hdst, h⟩ := bind_eq_ok h
    · obtain rfl := Except.ok.inj h
      exact opaqueRule_wellFormed ..
    · obtain rfl := Except.ok.inj h
      exact ⟨consumeIpSpec_ne_nil hsrc, consumeIpSpec_ne_nil hdst, fun _ => hact⟩

theorem extendedRule_wellFormed (hact : action = .permit ∨ action = .deny)
    (h : extendedRule ruleId action rawLine objGroups toks = .ok r) : r.WellFormed := by
  cases toks with
  | nil =>
    obtain rfl := Except.ok.inj h
    exact opaqueRule_wellFormed ..
  | cons t toks =>
    unfold extendedRule protocolRule at h
    dsimp only at h
    split at h
    · exact extendedSpecs_wellFormed hact h
    · split_ifs at h
      · exact extendedSpecs_wellFormed hact h
      · obtain rfl := Except.ok.inj h
        exact opaqueRule_wellFormed ..

theorem actionOf_eq_some {tok : String} (h : actionOf tok = some action) :
    action = .permit ∨ action = .deny := by
  rw [actionOf] at h
  split_ifs at h
  · exact Or.inl (Option.some.inj h).symm
  · exact Or.inr (Option.some.inj h).symm

theorem parseAceLine_wellFormed {seq kind : String}
    (h : parseAceLine rawLine seq kind objGroups = some r) : r.WellFormed := by
  have hunread {id : String} {action : Action} {reason : String} :
      ({ id := id, action := action, fields := { isOpaque := true }, rawText := rawLine,
         unresolved := [reason] } : Rule).WellFormed :=
    ⟨List.cons_ne_nil _ _, List.cons_ne_nil _ _, fun h => absurd h (by simp [Rule.isDecidable])⟩
  unfold parseAceLine at h
  dsimp only at h
  generalize aceHeader (strip rawLine) seq kind = header at h
  obtain ⟨ruleId, kind', text⟩ := header
  dsimp only at h
  split at h
  · simp at h
  · split at h
    · simp at h
    · generalize split text = toks at h
      cases toks with
      | nil => simp at h
      | cons actionTok toks =>
        dsimp only at h
        rcases hact : actionOf (lower actionTok) with _ | action
        · rw [hact] at h
          obtain rfl := Option.some.inj h
          exact hunread
        · rw [hact] at h
          dsimp only at h
          have hact' := actionOf_eq_some hact
          rcases hrule : (if startsWith kind' "standard" = true ∨ kind' = "named-std" then
              standardRule ruleId action rawLine objGroups toks
            else extendedRule ruleId action rawLine objGroups toks) with exc | r'
          · rw [hrule] at h
            obtain rfl := Option.some.inj h
            exact hunread
          · rw [hrule] at h
            obtain rfl := Option.some.inj h
            split at hrule
            · exact standardRule_wellFormed hact' hrule
            · exact extendedRule_wellFormed hact' hrule

/-! ## Blocks -/

/-- The header of an interface block names an interface. -/
def Block.Named (b : Block) : Prop :=
  b.kind = .interface → strip (String.ofList (b.header.toList.drop 10)) ≠ ""

variable {line : String}

theorem name_ne_empty (h : startsWith (lower (strip line)) "interface ") :
    strip (String.ofList ((strip line).toList.drop 10)) ≠ "" := by
  have hpre : "interface ".toList <+: (stripChars line.toList).map Char.toLower := by
    have hlow : (lower (strip line)).toList = (stripChars line.toList).map Char.toLower := by
      rw [lower, String.toList_ofList, strip, String.toList_ofList]
    rwa [startsWith, List.isPrefixOf_iff_prefix, hlow] at h
  obtain ⟨t, ht⟩ := hpre
  have hget : ((stripChars line.toList)[9]?).map Char.toLower = some ' ' := by
    rw [← List.getElem?_map, ← ht]
    rfl
  obtain ⟨c, hc, hlow⟩ := Option.map_eq_some_iff.mp hget
  have hspace : isSpace c = true := by
    rw [eq_of_toLower (by decide) hlow]
    decide
  intro hempty
  refine stripChars_drop_ne_nil hc hspace ?_
  have hchars := congrArg String.toList hempty
  simpa [strip] using hchars

theorem openBlock_named {b : Block} (h : openBlock (strip line) = some b) : b.Named := by
  unfold openBlock at h
  dsimp only at h
  split_ifs at h with hif
  · obtain rfl := Option.some.inj h
    exact fun _ => name_ne_empty hif
  all_goals
    obtain rfl := Option.some.inj h
    exact fun hk => absurd hk (by simp)

theorem lineBlock_named {s : String} {b : Block} (h : lineBlock s = some b) : b.Named := by
  unfold lineBlock at h
  dsimp only at h
  split_ifs at h
  all_goals
    obtain rfl := Option.some.inj h
    exact fun hk => absurd hk (by simp)

theorem blockLine_named {st : List Block × Option Block}
    (h : ∀ b ∈ st.1 ++ st.2.toList, b.Named) (line : String) :
    ∀ b ∈ (blockLine st line).1 ++ (blockLine st line).2.toList, b.Named := by
  obtain ⟨blocks, current⟩ := st
  unfold blockLine
  dsimp only at h ⊢
  split_ifs
  · exact h
  · intro b hb
    simp only [List.mem_append, Option.mem_toList, or_assoc] at hb
    rw [← or_assoc] at hb
    rcases hb with hb | hb | hb
    · exact h b (List.mem_append.mpr (hb.imp_right fun h => Option.mem_toList.mpr h))
    · exact lineBlock_named hb
    · exact openBlock_named hb
  · intro b hb
    rcases List.mem_append.mp hb with hb | hb
    · exact h b (List.mem_append_left _ hb)
    · obtain ⟨b', hb', rfl⟩ := Option.map_eq_some_iff.mp (Option.mem_toList.mp hb)
      exact h b' (List.mem_append_right _ (Option.mem_toList.mpr hb'))

theorem extractBlocks_named (lines : List String) : ∀ b ∈ extractBlocks lines, b.Named := by
  have hrun : ∀ (lines : List String) (st : List Block × Option Block),
      (∀ b ∈ st.1 ++ st.2.toList, b.Named) →
        ∀ b ∈ (lines.foldl blockLine st).1 ++ (lines.foldl blockLine st).2.toList, b.Named := by
    intro lines
    induction lines with
    | nil => exact fun st h => h
    | cons line lines ih => exact fun st h => ih _ (blockLine_named h line)
  exact hrun lines ([], none) fun b hb => nomatch hb

/-! ## The block loop -/

structure Route.ConnectedOn (interfaces : PyDict.Dict IfaceInfo) (r : Route) : Prop where
  source : r.source = .connected
  nextHop : r.nextHop = none
  named : r.interface ≠ ""
  known : PyDict.has interfaces r.interface = true

/-- A static route before its next hop was resolved: with a next hop it has no interface. -/
structure Route.Unresolved (r : Route) : Prop where
  source : r.source = .static
  nextHop : ∀ nh, r.nextHop = some nh → nh ≠ "" ∧ r.interface = ""

/-- What every block preserves. -/
structure ParseState.Sound (st : ParseState) : Prop where
  rules : ∀ p ∈ st.acls, ∀ r ∈ p.2.rules, r.WellFormed
  connected : ∀ r ∈ st.connectedRoutes, r.ConnectedOn st.interfaces
  statics : ∀ r ∈ st.staticRoutes, r.Unresolved

theorem has_set {α : Type} {d : PyDict.Dict α} {k k' : String} (v : α)
    (h : PyDict.has d k) : PyDict.has (PyDict.set d k' v) k = true := by
  rw [PyDict.has, PyDict.get?_set]
  split
  · rfl
  · exact h

theorem addRules_wellFormed {acls : PyDict.Dict RuleSet} {rules : List Rule}
    (h : ∀ p ∈ acls, ∀ r ∈ p.2.rules, r.WellFormed) (hnew : ∀ r ∈ rules, r.WellFormed)
    (name kind : String) : ∀ p ∈ addRules acls name kind rules, ∀ r ∈ p.2.rules, r.WellFormed := by
  intro p hp r hr
  rw [addRules] at hp
  rcases PyDict.mem_set hp with rfl | hp
  · rcases List.mem_append.mp hr with hr | hr
    · rcases hget : PyDict.get? acls name with _ | acl
      · rw [hget] at hr
        cases hr
      · rw [hget] at hr
        exact h _ (PyDict.mem_of_get? hget) r hr
    · exact hnew r hr
  · exact h p hp r hr

theorem connectedRoute_eq_some {info : IfaceInfo} {r : Route} (h : connectedRoute info = some r) :
    r.source = .connected ∧ r.nextHop = none ∧ r.interface = info.name := by
  unfold connectedRoute at h
  split at h
  · split at h
    · obtain rfl := Option.some.inj h
      exact ⟨rfl, rfl, rfl⟩
    · simp at h
  · simp at h

theorem isIp_ne_empty {s : String} (h : isIp s) : s ≠ "" := by
  rintro rfl
  exact absurd h (by decide)

theorem staticRoute_unresolved {header : String} {r : Route} (h : staticRoute header = some r) :
    r.Unresolved := by
  unfold staticRoute at h
  dsimp only at h
  split at h
  · next nexthop tail _ =>
    split at h
    · obtain rfl := Option.some.inj h
      refine ⟨rfl, fun nh hnh => ?_⟩
      dsimp only at hnh ⊢
      split at hnh
      · next hip =>
        obtain rfl := Option.some.inj hnh
        exact ⟨isIp_ne_empty hip, if_pos hip⟩
      · simp at hnh
    · simp at h
  · exact absurd h (by simp)

theorem interfaceLine_name {info info' : IfaceInfo}
    (h : interfaceLine info line = .ok info') : info'.name = info.name := by
  have hpure {i : IfaceInfo} (h : (pure i : Py IfaceInfo) = .ok info')
      (hi : i.name = info.name) : info'.name = info.name := by
    obtain rfl := Except.ok.inj h
    exact hi
  unfold interfaceLine at h
  dsimp only at h
  by_cases hshut : lower line = "shutdown"
  · rw [if_pos hshut] at h
    exact hpure h rfl
  · rw [if_neg hshut] at h
    by_cases haddr : startsWith (lower line) "ip address " = true
    · rw [if_pos haddr] at h
      split at h
      · next t1 ipVal maskVal _ _ =>
        by_cases ht : lower t1 = "address"
        · rw [if_pos ht] at h
          by_cases hmask : isIp maskVal = true
          · rw [if_pos hmask] at h
            obtain ⟨pfxLen, -, h⟩ := bind_eq_ok h
            split_ifs at h
            · exact hpure h rfl
            · exact hpure h rfl
          · rw [if_neg hmask] at h
            obtain ⟨pfxLen, -, h⟩ := bind_eq_ok h
            split_ifs at h
            · exact hpure h rfl
            · exact hpure h rfl
        · rw [if_neg ht] at h
          exact hpure h rfl
      · exact hpure h rfl
    · rw [if_neg haddr] at h
      by_cases hgroup : startsWith (lower line) "ip access-group " = true
      · rw [if_pos hgroup] at h
        split at h
        · split_ifs at h
          · exact hpure h rfl
          · exact hpure h rfl
          · exact hpure h rfl
        · exact hpure h rfl
      · rw [if_neg hgroup] at h
        exact hpure h rfl

theorem processBlock_sound {st st' : ParseState} {b : Block}
    (hb : b.Named) (hst : st.Sound) (h : processBlock objGroups st b = .ok st') : st'.Sound := by
  have hparsed {seq kind : String} {l : List String} :
      ∀ r ∈ l.filterMap fun line => parseAceLine line seq kind objGroups, r.WellFormed := by
    intro r hr
    obtain ⟨line, -, hline⟩ := List.mem_filterMap.mp hr
    exact parseAceLine_wellFormed hline
  unfold processBlock at h
  split at h
  · split at h
    · obtain rfl := Except.ok.inj h
      refine ⟨addRules_wellFormed hst.rules (fun r hr => ?_) _ _, hst.connected, hst.statics⟩
      exact parseAceLine_wellFormed (Option.mem_toList.mp hr)
    · obtain rfl := Except.ok.inj h
      exact hst
  · obtain rfl := Except.ok.inj h
    exact ⟨addRules_wellFormed hst.rules hparsed _ _, hst.connected, hst.statics⟩
  · obtain rfl := Except.ok.inj h
    exact ⟨addRules_wellFormed hst.rules hparsed _ _, hst.connected, hst.statics⟩
  · next hkind =>
    obtain ⟨info, hinfo, h⟩ := bind_eq_ok h
    obtain rfl := Except.ok.inj h
    have hname : info.name = strip (String.ofList (b.header.toList.drop 10)) :=
      foldlM_invariant (P := fun i : IfaceInfo =>
          i.name = strip (String.ofList (b.header.toList.drop 10)))
        (fun line _ i i' hi hline => (interfaceLine_name hline).trans hi) hinfo rfl
    refine ⟨hst.rules, fun r hr => ?_, hst.statics⟩
    rcases List.mem_append.mp hr with hr | hr
    · obtain ⟨hsource, hhop, hnamed, hknown⟩ := hst.connected r hr
      exact ⟨hsource, hhop, hnamed, has_set info hknown⟩
    · obtain ⟨hsource, hhop, hintf⟩ := connectedRoute_eq_some (Option.mem_toList.mp hr)
      rw [hname] at hintf
      refine ⟨hsource, hhop, by rw [hintf]; exact hb hkind, ?_⟩
      rw [hintf, PyDict.has, PyDict.get?_set, if_pos rfl]
      rfl
  · obtain rfl := Except.ok.inj h
    refine ⟨hst.rules, hst.connected, fun r hr => ?_⟩
    rcases List.mem_append.mp hr with hr | hr
    · exact hst.statics r hr
    · exact staticRoute_unresolved (Option.mem_toList.mp hr)
  · obtain rfl := Except.ok.inj h
    exact ⟨hst.rules, hst.connected, hst.statics⟩

/-! ## The environment -/

/-- A static route after its next hop was resolved: it leaves through the connected subnet of its
next hop, and through no interface when there is no such subnet. -/
structure Route.ResolvedBy (connected : List Route) (r : Route) : Prop where
  source : r.source = .static
  nextHop : ∀ nh, r.nextHop = some nh → ∃ ip, ipToInt nh = .ok ip ∧
    ((∃ c ∈ connected, c.cube.containsIp ip = true ∧ r.interface = c.interface) ∨
      ((∀ c ∈ connected, ¬ c.cube.containsIp ip = true) ∧ r.interface = ""))

theorem resolveStatic_ok {connected : List Route} {sr sr' : Route} (hsr : sr.Unresolved)
    (h : resolveStatic connected sr = .ok sr') : sr'.ResolvedBy connected := by
  unfold resolveStatic at h
  rcases hhop : sr.nextHop with _ | nh
  · rw [hhop] at h
    obtain rfl := Except.ok.inj h
    exact ⟨hsr.source, fun nh hnh => absurd (hhop.symm.trans hnh) (by simp)⟩
  · obtain ⟨hne, hintf⟩ := hsr.nextHop nh hhop
    rw [hhop] at h
    dsimp only at h
    rw [if_pos ⟨hne, hintf⟩] at h
    obtain ⟨ip, hip, h⟩ := bind_eq_ok h
    rcases hfind : connected.find? (fun cr => cr.cube.containsIp ip) with _ | cr
    · rw [hfind] at h
      obtain rfl := Except.ok.inj h
      refine ⟨hsr.source, fun nh' hnh' => ?_⟩
      obtain rfl : nh = nh' := Option.some.inj (hhop.symm.trans hnh')
      exact ⟨ip, hip, Or.inr ⟨List.find?_eq_none.mp hfind, hintf⟩⟩
    · rw [hfind] at h
      obtain rfl := Except.ok.inj h
      refine ⟨hsr.source, fun nh' hnh' => ?_⟩
      obtain rfl : nh = nh' := Option.some.inj hnh'
      have hmem : cr ∈ connected := List.mem_of_find?_eq_some hfind
      have hcube : cr.cube.containsIp ip = true :=
        List.find?_some (p := fun c : Route => c.cube.containsIp ip) hfind
      exact ⟨ip, hip, Or.inl ⟨cr, hmem, hcube, rfl⟩⟩

/-- The lines of a configuration, as the parser goes over them. -/
def configLines (configText : String) : List String := (splitlines configText).map rstrip

theorem parseIosConfig_eq (configText : String) :
    parseIosConfig configText = parseIosLines (configLines configText) := rfl

variable {lines : List String}

theorem configLines_unlines (h : ∀ line ∈ lines, ∀ c ∈ line.toList, isLineBreak c = false)
    (hstrip : ∀ line ∈ lines, rstrip line = line) : configLines (unlines lines) = lines := by
  rw [configLines, splitlines_unlines h, List.map_congr_left hstrip, List.map_id']

/-- The environment of the state the block loop ends in. -/
def ParseState.environment (st : ParseState) (objGroups : ObjectGroups) (resolved : List Route) :
    IOSPolicyEnvironment where
  acls := st.acls
  interfaces := st.interfaces
  routeTable :=
    { routes := st.connectedRoutes ++ resolved
      dynamicRoutingPresent := decide (st.dynamicProtocols ≠ [])
      protocols := st.dynamicProtocols }
  objectGroups := objGroups

variable {env : IOSPolicyEnvironment}

theorem parseIosLines_eq_ok_iff :
    parseIosLines lines = .ok env ↔ ∃ objGroups st resolved,
      parseObjectGroups lines = .ok objGroups ∧
        (extractBlocks lines).foldlM (processBlock objGroups) {} = .ok st ∧
        st.staticRoutes.mapM (resolveStatic st.connectedRoutes) = .ok resolved ∧
        env = st.environment objGroups resolved := by
  rw [parseIosLines]
  constructor
  · intro h
    obtain ⟨objGroups, hgroups, h⟩ := bind_eq_ok h
    obtain ⟨st, hst, h⟩ := bind_eq_ok h
    obtain ⟨resolved, hresolved, h⟩ := bind_eq_ok h
    exact ⟨objGroups, st, resolved, hgroups, hst, hresolved, (Except.ok.inj h).symm⟩
  · rintro ⟨objGroups, st, resolved, hgroups, hst, hresolved, rfl⟩
    rw [hgroups]
    change ((extractBlocks lines).foldlM (processBlock objGroups) {} >>= _) = _
    rw [hst]
    change (st.staticRoutes.mapM (resolveStatic st.connectedRoutes) >>= _) = _
    rw [hresolved]
    rfl

theorem foldlM_processBlock_sound
    {st : ParseState} (h : (extractBlocks lines).foldlM (processBlock objGroups) {} = .ok st) :
    st.Sound := by
  refine foldlM_invariant (P := ParseState.Sound) (fun b hb s s' hs hstep => ?_) h ?_
  · exact processBlock_sound (extractBlocks_named lines b hb) hs hstep
  · exact ⟨fun p hp => absurd hp List.not_mem_nil, fun r hr => absurd hr List.not_mem_nil,
      fun r hr => absurd hr List.not_mem_nil⟩

section Resolved

variable {st : ParseState} {resolved : List Route}

theorem ParseState.Sound.resolvedBy (hst : st.Sound)
    (h : st.staticRoutes.mapM (resolveStatic st.connectedRoutes) = .ok resolved) :
    ∀ r ∈ resolved, r.ResolvedBy st.connectedRoutes := by
  intro r hr
  obtain ⟨sr, hsr, hres⟩ := PyDict.mem_mapM_ok h hr
  exact resolveStatic_ok (hst.statics sr hsr) hres

theorem ParseState.Sound.connectedSubnets (hst : st.Sound)
    (h : st.staticRoutes.mapM (resolveStatic st.connectedRoutes) = .ok resolved)
    (objGroups : ObjectGroups) :
    (st.environment objGroups resolved).routeTable.connectedSubnets = st.connectedRoutes := by
  change (st.connectedRoutes ++ resolved).filter (fun r => decide (r.source = .connected)) = _
  rw [List.filter_append, List.filter_eq_self.mpr, List.filter_eq_nil_iff.mpr, List.append_nil]
  · intro r hr
    simp [(hst.resolvedBy h r hr).source]
  · intro r hr
    simp [(hst.connected r hr).source]

end Resolved

/-- What holds of every parsed configuration. -/
structure IOSPolicyEnvironment.Sound (env : IOSPolicyEnvironment) : Prop where
  rules : ∀ p ∈ env.acls, ∀ r ∈ p.2.rules, r.WellFormed
  routes : ∀ r ∈ env.routeTable.routes,
    r.ConnectedOn env.interfaces ∨ r.ResolvedBy env.routeTable.connectedSubnets
  connected : ∀ r ∈ env.routeTable.connectedSubnets, r.ConnectedOn env.interfaces

theorem parseIosLines_sound (h : parseIosLines lines = .ok env) : env.Sound := by
  obtain ⟨objGroups, st, resolved, -, hst, hresolved, rfl⟩ := parseIosLines_eq_ok_iff.mp h
  have hsound : st.Sound := foldlM_processBlock_sound hst
  have hsubnets := hsound.connectedSubnets hresolved objGroups
  refine ⟨hsound.rules, fun r hr => ?_, fun r hr => ?_⟩
  · rcases List.mem_append.mp hr with hr | hr
    · exact Or.inl (hsound.connected r hr)
    · rw [hsubnets]
      exact Or.inr (hsound.resolvedBy hresolved r hr)
  · rw [hsubnets] at hr
    exact hsound.connected r hr

/-- A parsed configuration is sound. -/
theorem parseIosConfig_sound {configText : String}
    (h : parseIosConfig configText = .ok env) : env.Sound :=
  parseIosLines_sound h

end SentinelNet.PolicyTest
