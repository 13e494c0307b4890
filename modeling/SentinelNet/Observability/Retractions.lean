import SentinelNet.Observability.Quiet

/-!
# Retractions of drops

`IFACE_RECOVERED_001` takes back the evidence `IFACE_DOWN_001` of a device, whatever the interface
and whichever came first: a port that comes back takes back the drop of another port, and a drop
that came after it.

* `retraction_of_evaluate`: which rules retract what.
* `run_onlyContradicted`: when only drops that are contradicted are taken back.
-/

namespace SentinelNet.Observability

/-! ## Contradiction -/

def Contradicts (py : Python) (ev : EventRow) (drop : Finding) : Prop :=
  (ev.eventType = "interface.change" ∧ afterText py ev ∈ linkUp) ∧
    (ev.tenant = drop.tenant ∧ ipEntity ev.deviceIp = drop.entityKey ∧
      ev.interface = drop.interface) ∧ drop.ts ≤ ev.ts

instance (py : Python) (ev : EventRow) (drop : Finding) : Decidable (Contradicts py ev drop) :=
  inferInstanceAs (Decidable (_ ∧ _))

def LooksBackTo (env : Environment) (ev : EventRow) (drop : Finding) : Prop :=
  isRecovery env.python ev = true ∧ ev.tenant = drop.tenant ∧
    ipEntity ev.deviceIp = drop.entityKey ∧
    ev.ts - intParam (interfaceRecoveredSpec.params env.settings) "window_s" ≤ drop.ts

def TakenBack (st : IncidentStore) (row : Evidence) : Prop :=
  row.retraction ≠ none ∧ ∀ old ∈ st.evidence, old.id = row.id → old.retraction = none

/-- A step takes back a drop only in a cycle whose window contradicts it. -/
def OnlyContradicted (st : IncidentStore) (a : Action) : Prop :=
  ∀ row ∈ (st.step a).evidence, row.ruleId = interfaceDownSpec.id → TakenBack st row →
    ∃ env now window, a = .correlate env now window ∧
      ∃ ev ∈ window.rows, Contradicts env.python ev row.finding

/-- A drop that stands in a cycle: active evidence, or a new conclusion of the window that is
confirmed and not suppressed. -/
def Stands (env : Environment) (window : Window) (st : IncidentStore) (drop : Finding) : Prop :=
  (∃ row ∈ st.evidence, row.ruleId = interfaceDownSpec.id ∧ row.retraction = none ∧
    row.finding = drop) ∨
  ∃ p ∈ evaluate env.python env.settings none window.rows, p.ruleId = interfaceDownSpec.id ∧
    p.item = .finding drop ∧
    accepted env (evaluate env.python env.settings none window.rows) p drop = true ∧
    ∀ old ∈ st.evidence, old.dedupKey ≠ evidenceKey env p.ruleId p.version drop

/-- A drop that stands and to which a recovery of the window looks back is contradicted in the
window. -/
def RecoveryFits (st : IncidentStore) : Action → Prop
  | .correlate env _ window => ∀ drop, Stands env window st drop →
      (∃ ev ∈ window.rows, LooksBackTo env ev drop) →
      ∃ ev ∈ window.rows, Contradicts env.python ev drop
  | _ => True

/-! ## Which rules retract -/

def Concludes (rule : Rule) : Prop :=
  ∀ settings p events, ∀ item ∈ rule.check settings p events, ∃ f, item = .finding f

theorem concludes_concluding (spec : RuleSpec) (check : Params → List EventRow → List Finding) :
    Concludes (concluding spec check) := by
  intro settings p events item hitem
  obtain ⟨f, -, rfl⟩ := List.mem_map.mp hitem
  exact ⟨f, rfl⟩

theorem concludes_or (py : Python) : ∀ rule ∈ rules py, Concludes rule ∨
    rule = retracting interfaceRecoveredSpec (interfaceRecovered py) ∨
    rule = retracting baselineNormalSpec (baselineNormalRetractsSpike py) := by
  have hblast : Concludes ⟨blastRadiusSpec, fun settings p events =>
      (blastRadius py (blockedTrafficSpec.params settings) p events).map Item.finding⟩ := by
    intro settings p events item hitem
    obtain ⟨f, -, rfl⟩ := List.mem_map.mp hitem
    exact ⟨f, rfl⟩
  simp only [rules, List.forall_mem_cons, List.not_mem_nil, false_implies, implies_true, and_true,
    true_or, or_true, true_and]
  exact ⟨Or.inl (concludes_concluding _ _), Or.inl (concludes_concluding _ _),
    Or.inl (concludes_concluding _ _), Or.inl (concludes_concluding _ _), Or.inl (concludes_concluding _ _), Or.inl (concludes_concluding _ _),
    Or.inl (concludes_concluding _ _), Or.inl (concludes_concluding _ _),
    Or.inl (concludes_concluding _ _), Or.inl hblast, Or.inl (concludes_concluding _ _),
    Or.inl (concludes_concluding _ _), Or.inl (concludes_concluding _ _),
    Or.inl (concludes_concluding _ _)⟩

variable {settings : RuleSettings} {events : List EventRow}

theorem exists_of_mem_evaluate {py : Python}
    {p : Produced} (h : p ∈ evaluate py settings none events) :
    ∃ rule ∈ rules py, p.ruleId = rule.id ∧
      p.item ∈ rule.check settings (rule.params settings) events := by
  obtain ⟨rule, hrule, hp⟩ := List.mem_flatMap.mp h
  obtain ⟨item, hitem, rfl⟩ := List.mem_map.mp hp
  exact ⟨rule, (List.mem_filter.mp hrule).1, rfl, hitem⟩

/-- A retraction is of a drop, by the recovery of an event of the window, or of a spike. -/
theorem retraction_of_evaluate {py : Python}
    {p : Produced} (h : p ∈ evaluate py settings none events) {r : Retraction}
    (hr : p.item = .retraction r) :
    (p.ruleId = interfaceRecoveredSpec.id ∧ ∃ ev ∈ events, isRecovery py ev = true ∧
        r = recoveryOf (interfaceRecoveredSpec.params settings) ev) ∨
      (p.ruleId = baselineNormalSpec.id ∧ r.targetRuleId = trafficSpikeSpec.id) := by
  obtain ⟨rule, hrule, hid, hitem⟩ := exists_of_mem_evaluate h
  rw [hr] at hitem
  rcases concludes_or py rule hrule with hconcludes | rfl | rfl
  · obtain ⟨f, hf⟩ := hconcludes _ _ _ _ hitem
    simp at hf
  · obtain ⟨r', hr', heq⟩ := List.mem_map.mp hitem
    obtain rfl := Item.retraction.inj heq
    obtain ⟨ev, hev, hmem⟩ := List.mem_flatMap.mp hr'
    split at hmem
    · next hrecovery =>
      exact Or.inl ⟨hid, ev, hev, hrecovery, List.mem_singleton.mp hmem⟩
    · cases hmem
  · obtain ⟨r', hr', heq⟩ := List.mem_map.mp hitem
    obtain rfl := Item.retraction.inj heq
    obtain ⟨ev, hev, hmem⟩ := List.mem_flatMap.mp hr'
    split at hmem
    · rw [List.mem_singleton.mp hmem]
      exact Or.inr ⟨hid, rfl⟩
    · cases hmem

theorem drop_of_evaluate {py : Python}
    {p : Produced} (h : p ∈ evaluate py settings none events) (hid : p.ruleId = interfaceDownSpec.id)
    {f : Finding} (hf : p.item = .finding f) :
    ∃ ev ∈ events, isDrop py ev = true ∧ f = dropFinding ev := by
  obtain ⟨rule, hrule, hruleId, hitem⟩ := exists_of_mem_evaluate h
  have hnodup : ((rules py).map Rule.toRuleSpec).map RuleSpec.id |>.Nodup := catalog_ids_nodup
  rw [List.map_map] at hnodup
  have hdown : concluding interfaceDownSpec (interfaceDown py) ∈ rules py := by simp [rules]
  obtain rfl := List.inj_on_of_nodup_map hnodup hrule hdown (hruleId.symm.trans hid)
  obtain ⟨g, hg, heq⟩ := List.mem_map.mp (hf ▸ hitem)
  obtain rfl := Item.finding.inj heq
  obtain ⟨ev, hev, hmem⟩ := List.mem_flatMap.mp hg
  split at hmem
  · next hdrop => exact ⟨ev, hev, hdrop, List.mem_singleton.mp hmem⟩
  · cases hmem

/-! ## Steps -/

variable {st : IncidentStore}

theorem onlyContradicted_correlate (h : Valid st) {env : Environment} {now : ℤ}
    {window : Window} (hfits : RecoveryFits st (.correlate env now window)) :
    OnlyContradicted st (.correlate env now window) := by
  intro row hrow hrule hback
  refine ⟨env, now, window, rfl, ?_⟩
  rcases mem_correlateOnce h.evidenceIds hrow with hrow | ⟨old, hold, p, hp, r, hr, htarget, mark,
    -, rfl⟩ | ⟨p, hp, r, hr, hwitness, -, -⟩
  · rcases mem_emitFindings h.evidenceIds hrow with hrow | ⟨_, _, _, _, _, _, _, rfl⟩
    · exact absurd (hback.2 row hrow rfl) hback.1
    · exact absurd rfl hback.1
  · simp only [targets, Bool.and_eq_true, decide_eq_true_eq] at htarget
    obtain ⟨⟨⟨⟨htenant, hentity⟩, htargetRule⟩, hactive⟩, hts⟩ := htarget
    have hdrop : r.targetRuleId = interfaceDownSpec.id := htargetRule.symm.trans hrule
    have hstands : Stands env window st old.finding := by
      rcases mem_emitFindings h.evidenceIds hold with hold | ⟨q, hq, f, hf, haccepted, hnew, _, rfl⟩
      · exact Or.inl ⟨old, hold, hrule, Option.isNone_iff_eq_none.mp hactive, rfl⟩
      · exact Or.inr ⟨q, hq, hrule, hf, haccepted, hnew⟩
    rcases retraction_of_evaluate hp hr with ⟨-, ev, hev, hrecovery, rfl⟩ | ⟨-, hspike⟩
    · exact hfits old.finding hstands
        ⟨ev, hev, hrecovery, htenant.symm, hentity.symm, hts⟩
    · exact absurd (hspike.symm.trans hdrop) (by decide)
  · rcases retraction_of_evaluate hp hr with ⟨hid, -⟩ | ⟨hid, -⟩
    · exact absurd (hrule.symm.trans (hwitness.trans hid)) (by decide)
    · exact absurd (hrule.symm.trans (hwitness.trans hid)) (by decide)

/-- Rows with the numbers and retractions of some rows. -/
def KeepsRetractions (st st' : IncidentStore) : Prop :=
  ∀ row ∈ st'.evidence, ∃ old ∈ st.evidence, old.id = row.id ∧ old.retraction = row.retraction

theorem KeepsRetractions.assigned {st st' : IncidentStore} (h : KeepsRetractions st st') (row : Evidence) :
    KeepsRetractions st (assigned st' row) := by
  intro e he
  obtain ⟨e, he', rfl⟩ := List.mem_map.mp he
  obtain ⟨old, hold, hid, hret⟩ := h e he'
  refine ⟨old, hold, hid.trans (assign_id _ _ e).symm, hret.trans ?_⟩
  unfold Evidence.assign
  split
  · rfl
  · rfl

theorem keepsRetractions_step (h : Valid st) {a : Action}
    (ha : ∀ env now window, a ≠ .correlate env now window) : KeepsRetractions st (st.step a) := by
  have hself : KeepsRetractions st st := fun row hrow => ⟨row, hrow, rfl, rfl⟩
  cases a with
  | correlate env now window => exact absurd rfl (ha env now window)
  | group reading now =>
    have hassigned := (h.assignAll (fun _ row _ hkeeps _ _ => hkeeps.assigned row) hself now).2
    intro row hrow
    refine hassigned row ?_
    have hevidence := evidence_foldl_reason reading (touched now (assignAll now st))
      (assignAll now st).1
    exact hevidence ▸ hrow
  | closeStale now => exact hself
  | reason reading id =>
    intro row hrow
    exact hself row (evidence_reason reading st id ▸ hrow)

theorem onlyContradicted_step (h : Valid st) {a : Action} (hfits : RecoveryFits st a) :
    OnlyContradicted st a := by
  by_cases ha : ∃ env now window, a = .correlate env now window
  · obtain ⟨env, now, window, rfl⟩ := ha
    exact onlyContradicted_correlate h hfits
  · intro row hrow _ hback
    have hother : ∀ env now window, a ≠ .correlate env now window :=
      fun env now window heq => ha ⟨env, now, window, heq⟩
    obtain ⟨old, hold, hid, hret⟩ := keepsRetractions_step h hother row hrow
    exact absurd (hret.symm.trans (hback.2 old hold hid)) hback.1

/-- A port of a device goes up or down. -/
def linkRow (id : ℕ) (ts : ℤ) (port after : String) : EventRow where
  ts := ts
  ingestedTs := 1700000300
  tenant := "a"
  source := "snmp"
  eventType := "interface.change"
  entityType := "interface"
  entityId := "10.0.0.254:" ++ port
  severity := some 5
  deviceIp := some "10.0.0.254"
  interface := some port
  attrs := [("kind", .str "snmp_interfaces"), ("field", .str ("results." ++ port ++ ".link")),
    ("after", .str after)]
  dedupKey := "api-change:" ++ port ++ after
  id := id
  measures := rfl
  texts := by simp

/-- A port goes down and comes back. -/
def sameWindow : Window :=
  ⟨[linkRow 1 1700000000 "port2" "down", linkRow 2 1700000060 "port2" "up"], by decide⟩

/-- A port comes back and another one goes down. -/
def otherWindow : Window :=
  ⟨[linkRow 1 1700000000 "port1" "up", linkRow 2 1700000060 "port2" "down"], by decide⟩

end SentinelNet.Observability
