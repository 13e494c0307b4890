import SentinelNet.Lib.Runs
import SentinelNet.Probes.Registry

/-!
# Tokens of agents

A token authenticates as a probe only while it is the last one that was issued to the probe since
the probe entered mode `agent`.  `update_probe` drops the hash of a token in mode `central` only: a
probe that leaves mode `agent` for mode `jump` keeps it, and the old token is good again when the
probe comes back.

* `run_revocationFinal_iff`: when the revocations of a run are final.
-/

namespace SentinelNet.Probes

open PyDict StepRuns

/-! ## Operations -/

/-- An operation on the file. -/
inductive Action where
  | create (name mode : String) (fields : Bastion) (draw : Draw)
  | update (probeId : String) (name mode : Option String) (fields : Fields)
  | regenerate (probeId token : String)
  | delete (probeId : String)
  | authenticate (token : String)

section Ledger

variable (hashToken : String → String)

/-- The file after an operation, and the token that it hands out with the id of its probe.  An
operation that raises leaves the file as it is. -/
def Registry.step (reg : Registry) : Action → Registry × Option (String × String)
  | .create name mode fields draw =>
    match createProbe hashToken reg name mode fields draw with
    | .ok (some (reg', id, token)) => (reg', token.map fun t => (id, t))
    | _ => (reg, none)
  | .update probeId name mode fields =>
    match updateProbe reg probeId name mode fields with
    | .ok (_, reg') => (reg', none)
    | .error _ => (reg, none)
  | .regenerate probeId token =>
    ((regenerateToken hashToken reg probeId token).1,
      (regenerateToken hashToken reg probeId token).2.map fun t => (probeId, t))
  | .delete probeId => ((deleteProbe reg probeId).2, none)
  | .authenticate _ => (reg, none)

def inAgentMode (reg : Registry) (probeId : String) : Bool :=
  (get? reg probeId).any fun probe => probe.mode = .agent

/-- For each probe, the last token that was issued to it since it entered mode `agent`. -/
abbrev Ledger := String → Option String

/-- The ledger after an operation: a probe that was handed a token has this one, a probe that stays
in mode `agent` keeps its token, and any other probe has none. -/
def book (before after : Registry) (issue : Option (String × String)) (ledger : Ledger) : Ledger :=
  fun probeId =>
    ((issue.filter fun e => e.1 = probeId).map Prod.snd).or
      (if inAgentMode before probeId && inAgentMode after probeId then ledger probeId else none)

/-- The file, the ledger and all tokens that were handed out. -/
structure Issuing where
  registry : Registry
  ledger : Ledger
  issued : List String

/-- Before anything was done. -/
def Issuing.start (now : ℚ) : Issuing := ⟨defaultProbes now, fun _ => none, []⟩

/-- An operation beside the ledger. -/
def Issuing.step (s : Issuing) (a : Action) : Issuing :=
  let done := s.registry.step hashToken a
  ⟨done.1, book s.registry done.1 done.2 s.ledger, s.issued ++ done.2.toList.map Prod.snd⟩

/-- A token that is handed out is not empty and was not handed out before. -/
def Fresh (s : Issuing) (a : Action) : Prop :=
  ∀ e ∈ (s.registry.step hashToken a).2, e.2 ≠ "" ∧ e.2 ∉ s.issued

/-- Who authenticates as a probe has the last token that was issued to it since it entered mode
`agent`, where it still is. -/
def LastIssued (s : Issuing) : Prop :=
  ∀ token probeId, authenticate hashToken s.registry token = some probeId →
    (∃ probe, get? s.registry probeId = some probe ∧ probe.mode = .agent) ∧
      s.ledger probeId = some token

/-- A token that was handed out and is in the ledger no more does not come back into it, and does
not authenticate. -/
def RevokedStays (s : Issuing) (a : Action) : Prop :=
  ∀ token ∈ s.issued, (∀ probeId, s.ledger probeId ≠ some token) →
    (∀ probeId, (s.step hashToken a).ledger probeId ≠ some token) ∧
      authenticate hashToken (s.step hashToken a).registry token = none

/-- After an operation only the last tokens are good, and the tokens revoked before stay so. -/
def RevocationFinal (s : Issuing) (a : Action) : Prop :=
  LastIssued hashToken (s.step hashToken a) ∧ RevokedStays hashToken s a

/-- An update takes a probe from another mode into mode `agent`, with the hash of a token. -/
def EntersWithToken (reg : Registry) : Action → Prop
  | .update probeId _ mode _ => mode = some Mode.agent.word ∧ ∃ probe, get? reg probeId = some probe ∧
      probe.mode ≠ .agent ∧ probe.tokenHash ≠ none
  | _ => False

/-! ## What an operation does -/

/-- What an operation does to the file: nothing, a new probe without or with a token, a changed
probe with its token or none, a new token, or a probe less. -/
inductive Effect (reg : Registry) (a : Action) : Registry → Option (String × String) → Prop where
  | same : Effect reg a reg none
  | created {probe : Probe} : get? reg probe.id = none → probe.tokenHash = none →
      Effect reg a (set reg probe.id probe) none
  | enrolled {probe : Probe} {token : String} : get? reg probe.id = none → probe.mode = .agent →
      probe.tokenHash = some (hashToken token) →
      Effect reg a (set reg probe.id probe) (some (probe.id, token))
  | edited {probeId : String} {old probe : Probe} : get? reg probeId = some old →
      probe.id = old.id → (probe.tokenHash = none ∨ probe.tokenHash = old.tokenHash) →
      (probe.mode = .agent → old.mode ≠ .agent → old.tokenHash ≠ none → EntersWithToken reg a) →
      Effect reg a (set reg probeId probe) none
  | regenerated {probeId token : String} {old : Probe} : get? reg probeId = some old →
      old.mode = .agent → Effect reg a
        (set reg probeId { old with tokenHash := some (hashToken token) }) (some (probeId, token))
  | deleted {probeId : String} : Effect reg a (del reg probeId) none

variable {hashToken}

theorem switch_token (probe : Probe) (m : Mode) :
    (probe.switch m).tokenHash = none ∨ (probe.switch m).tokenHash = probe.tokenHash := by
  rw [Probe.switch]
  by_cases hm : m = .central
  · exact Or.inl (if_pos hm)
  · exact Or.inr (if_neg hm)

variable {probe : Probe}

theorem switchTo_token {p : Probe} {mode : Option String} (h : probe.switchTo mode = .ok p) :
    p.id = probe.id ∧ (p.tokenHash = none ∨ p.tokenHash = probe.tokenHash) ∧
      (p.mode = probe.mode ∨ mode = some p.mode.word) := by
  rcases switchTo_ok h with ⟨-, heq⟩ | ⟨m, hmode, heq⟩
  · rw [heq]
    exact ⟨rfl, Or.inr rfl, Or.inl rfl⟩
  · rw [heq]
    exact ⟨rfl, switch_token probe m, Or.inr hmode⟩

theorem given_token {p : Probe} {fields : Bastion} (h : probe.given fields = .ok p) :
    p.id = probe.id ∧ p.tokenHash = probe.tokenHash ∧ p.mode = probe.mode := by
  rcases given_ok h with ⟨-, b, -, heq⟩ | ⟨-, heq⟩
  · rw [heq]
    exact ⟨rfl, rfl, rfl⟩
  · rw [heq]
    exact ⟨rfl, rfl, rfl⟩

theorem updated_token {p : Probe} {name mode : Option String} {fields : Fields}
    (h : probe.updated name mode fields = .ok p) :
    p.id = probe.id ∧ (p.tokenHash = none ∨ p.tokenHash = probe.tokenHash) ∧
      (p.mode = probe.mode ∨ mode = some p.mode.word) := by
  obtain ⟨q, r, hq, hr, heq⟩ := updated_ok h
  have hr := given_token hr
  have hq := switchTo_token hq
  rw [hr.1.symm, hr.2.1.symm, hr.2.2.symm] at hq
  rw [heq]
  exact hq

theorem effect (reg : Registry) (a : Action) :
    Effect hashToken reg a (reg.step hashToken a).1 (reg.step hashToken a).2 := by
  cases a with
  | create name mode fields draw =>
    rw [Registry.step]
    split
    · next reg' id token h =>
      obtain ⟨hfree, m, bastion, -, -, rfl, rfl⟩ := createProbe_ok h
      have hnone : get? reg id = none := Option.not_isSome_iff_eq_none.mp (by simpa [has] using has_of_freeId hfree)
      by_cases hm : m = .agent
      · rw [if_pos hm]
        exact @Effect.enrolled hashToken reg _ (newProbe hashToken id name m bastion draw) _ hnone hm
          (if_pos hm)
      · rw [if_neg hm]
        exact @Effect.created hashToken reg _ (newProbe hashToken id name m bastion draw) hnone
          (if_neg hm)
    · exact Effect.same
  | update probeId name mode fields =>
    rw [Registry.step]
    split
    · next reg' h =>
      rcases updateProbe_ok h with ⟨-, -, rfl⟩ | ⟨-, probe, p, hget, hp, rfl⟩
      · exact Effect.same
      · obtain ⟨hid, htoken, hmode⟩ := updated_token hp
        refine Effect.edited hget hid htoken fun hagent hold hhash => ?_
        rcases hmode with hmode | hmode
        · exact absurd (hmode.symm.trans hagent) hold
        · exact ⟨hagent ▸ hmode, probe, hget, hold, hhash⟩
    · exact Effect.same
  | regenerate probeId token =>
    rw [Registry.step, regenerateToken]
    cases hget : get? reg probeId with
    | none => exact Effect.same
    | some probe =>
      dsimp only
      by_cases hm : probe.mode = .agent
      · rw [if_pos hm]
        exact Effect.regenerated hget hm
      · rw [if_neg hm]
        exact Effect.same
  | delete probeId =>
    rw [Registry.step]
    rcases deleteProbe_eq reg probeId with hdelete | hdelete
    · rw [hdelete]
      exact Effect.deleted
    · rw [hdelete]
      exact Effect.same
  | authenticate token => exact Effect.same

/-- A hash after an operation is that of the token that was handed out to its probe, or was there
before. -/
theorem Effect.token {reg reg' : Registry} {a : Action} {issue : Option (String × String)}
    (h : Effect hashToken reg a reg' issue) {probeId : String} {probe : Probe} {hash : String}
    (hget : get? reg' probeId = some probe) (hhash : probe.tokenHash = some hash) :
    (∃ token, issue = some (probeId, token) ∧ hash = hashToken token) ∨
      (∀ e ∈ issue, e.1 ≠ probeId) ∧ ∃ old, get? reg probeId = some old ∧
        old.tokenHash = some hash ∧
        (probe.mode = .agent → ¬ EntersWithToken reg a → old.mode = .agent) := by
  have hnone : ∀ e ∈ (none : Option (String × String)), e.1 ≠ probeId := fun e he => by simp at he
  -- a probe that the operation does not write
  have hkept (hold : get? reg probeId = some probe) : ∃ old, get? reg probeId = some old ∧
      old.tokenHash = some hash ∧
      (probe.mode = .agent → ¬ EntersWithToken reg a → old.mode = .agent) :=
    ⟨probe, hold, hhash, fun hmode _ => hmode⟩
  cases h with
  | same => exact Or.inr ⟨hnone, hkept hget⟩
  | created hfree htoken =>
    rw [get?_set] at hget
    split at hget
    · obtain rfl := Option.some.inj hget
      exact absurd (htoken.symm.trans hhash) (by simp)
    · exact Or.inr ⟨hnone, hkept hget⟩
  | enrolled hfree hmode htoken =>
    rw [get?_set] at hget
    split at hget
    · next hid =>
      obtain rfl := Option.some.inj hget
      rw [hid]
      exact Or.inl ⟨_, rfl, Option.some.inj (hhash.symm.trans htoken)⟩
    · next hid =>
      refine Or.inr ⟨fun e he => ?_, hkept hget⟩
      rw [← Option.some.inj he]
      exact Ne.symm hid
  | @edited q old new hold _ htoken henters =>
    rw [get?_set] at hget
    split at hget
    · next hid =>
      obtain rfl := Option.some.inj hget
      have hsame : old.tokenHash = some hash := by
        rcases htoken with htoken | htoken
        · exact absurd (htoken.symm.trans hhash) (by simp)
        · exact htoken.symm.trans hhash
      refine Or.inr ⟨hnone, old, hid ▸ hold, hsame, fun hmode hno => ?_⟩
      by_contra hother
      exact hno (henters hmode hother (by simp [hsame]))
    · exact Or.inr ⟨hnone, hkept hget⟩
  | regenerated hold hmode =>
    rw [get?_set] at hget
    split at hget
    · next hid =>
      obtain rfl := Option.some.inj hget
      rw [hid]
      exact Or.inl ⟨_, rfl, (Option.some.inj hhash).symm⟩
    · next hid =>
      refine Or.inr ⟨fun e he => ?_, hkept hget⟩
      rw [← Option.some.inj he]
      exact Ne.symm hid
  | deleted =>
    rw [get?_del] at hget
    split at hget
    · simp at hget
    · exact Or.inr ⟨hnone, hkept hget⟩

variable {a : Action} {issue : Option (String × String)}

theorem Effect.ids {reg reg' : Registry} (h : Effect hashToken reg a reg' issue)
    (hids : ∀ k probe, get? reg k = some probe → probe.id = k) :
    ∀ k probe, get? reg' k = some probe → probe.id = k := by
  intro k probe hget
  have hset {q : String} {p : Probe} (hq : p.id = q) (hget : get? (set reg q p) k = some probe) :
      probe.id = k := by
    rw [get?_set] at hget
    split at hget
    · next hk => rw [hk, ← Option.some.inj hget, hq]
    · exact hids k probe hget
  cases h with
  | same => exact hids k probe hget
  | created _ _ => exact hset rfl hget
  | enrolled _ _ _ => exact hset rfl hget
  | edited hold hid _ _ => exact hset (hid.trans (hids _ _ hold)) hget
  | @regenerated q token old hold _ =>
    exact hset (p := { old with tokenHash := some (hashToken token) }) (hids q old hold) hget
  | deleted =>
    rw [get?_del] at hget
    split at hget
    · simp at hget
    · exact hids k probe hget

theorem Effect.unique {reg reg' : Registry}
    (h : Effect hashToken reg a reg' issue) (hu : Unique reg) : Unique reg' := by
  cases h with
  | same => exact hu
  | created _ _ => exact hu.set _ _
  | enrolled _ _ _ => exact hu.set _ _
  | edited _ _ _ _ => exact hu.set _ _
  | regenerated _ _ => exact hu.set _ _
  | deleted => exact hu.del _

/-! ## What authenticates -/

variable (hashToken) in
/-- The keys of the file are the ids of its probes, no key is there twice, and every hash is that of
a token that was handed out, in one probe only. -/
structure Valid (s : Issuing) : Prop where
  unique : Unique s.registry
  ids : ∀ k probe, get? s.registry k = some probe → probe.id = k
  hashes : ∀ k probe hash, get? s.registry k = some probe → probe.tokenHash = some hash →
    ∃ token ∈ s.issued, token ≠ "" ∧ hash = hashToken token
  distinct : ∀ k k' probe probe' hash, get? s.registry k = some probe →
    get? s.registry k' = some probe' → probe.tokenHash = some hash →
    probe'.tokenHash = some hash → k = k'

theorem valid_start (now : ℚ) : Valid hashToken (Issuing.start now) := by
  have hget {k : String} {probe : Probe} (h : get? (defaultProbes now) k = some probe) :
      probe.id = k ∧ probe.tokenHash = none := by
    rw [defaultProbes, get?_cons] at h
    split at h
    · next hk =>
      obtain rfl := Option.some.inj h
      exact ⟨hk.symm, rfl⟩
    · simp at h
  refine ⟨by simp [Issuing.start, defaultProbes, PyDict.Unique], fun k probe h => (hget h).1, fun k probe hash h hhash => ?_,
    fun k k' probe probe' hash h _ hhash _ => ?_⟩
  · exact absurd ((hget h).2.symm.trans hhash) (by simp)
  · exact absurd ((hget h).2.symm.trans hhash) (by simp)

variable {s : Issuing}

theorem Valid.step (hinj : Function.Injective hashToken) (h : Valid hashToken s)
    (hfresh : Fresh hashToken s a) : Valid hashToken (s.step hashToken a) := by
  have heffect : Effect hashToken s.registry a (s.step hashToken a).registry
      (s.registry.step hashToken a).2 := effect s.registry a
  -- the new token is none of those whose hashes are in the file
  have hother {k k' token : String} {old : Probe} {hash : String}
      (hissue : (s.registry.step hashToken a).2 = some (k, token))
      (hold : get? s.registry k' = some old) (hhash : old.tokenHash = some hash)
      (heq : hash = hashToken token) : False := by
    obtain ⟨earlier, hearlier, -, hsame⟩ := h.hashes k' old hash hold hhash
    have htoken : token = earlier := hinj (heq.symm.trans hsame)
    exact (hfresh _ hissue).2 (htoken ▸ hearlier)
  refine ⟨heffect.unique h.unique, heffect.ids h.ids, fun k probe hash hget hhash => ?_,
    fun k k' probe probe' hash hget hget' hhash hhash' => ?_⟩
  · rcases heffect.token hget hhash with ⟨token, hissue, heq⟩ | ⟨-, old, hold, hhash, -⟩
    · refine ⟨token, List.mem_append_right _ ?_, (hfresh _ hissue).1, heq⟩
      rw [hissue]
      exact List.mem_singleton_self _
    · obtain ⟨token, htoken, hne, heq⟩ := h.hashes k old hash hold hhash
      exact ⟨token, List.mem_append_left _ htoken, hne, heq⟩
  · rcases heffect.token hget hhash with ⟨token, hissue, heq⟩ | ⟨-, old, hold, hhash, -⟩
    · rcases heffect.token hget' hhash' with ⟨token', hissue', -⟩ | ⟨-, old, hold, hhash, -⟩
      · have hpair := Option.some.inj (hissue.symm.trans hissue')
        exact (Prod.mk.inj hpair).1
      · exact (hother hissue hold hhash heq).elim
    · rcases heffect.token hget' hhash' with ⟨token, hissue, heq⟩ | ⟨-, old', hold', hhash', -⟩
      · exact (hother hissue hold hhash heq).elim
      · exact h.distinct k k' old old' hash hold hold' hhash hhash'

variable {token probeId : String}

theorem authenticate_eq_some (h : Valid hashToken s) :
    authenticate hashToken s.registry token = some probeId ↔
      token ≠ "" ∧ ∃ probe, get? s.registry probeId = some probe ∧ probe.mode = .agent ∧
        probe.tokenHash = some (hashToken token) := by
  have hholds {probe : Probe} : probe.holds hashToken token = true ↔
      probe.mode = .agent ∧ probe.tokenHash = some (hashToken token) := by
    rw [Probe.holds, Bool.and_eq_true, decide_eq_true_eq, decide_eq_true_eq]
  have hmem {probe : Probe} (hprobe : probe ∈ s.registry.map Prod.snd) :
      get? s.registry probe.id = some probe := by
    obtain ⟨⟨k, p⟩, hp, rfl⟩ := List.mem_map.mp hprobe
    have hget := h.unique.get?_of_mem hp
    rw [h.ids k p hget]
    exact hget
  rw [authenticate]
  split
  · next hempty => exact ⟨fun h => absurd h (by simp), fun h => absurd hempty h.1⟩
  · next hempty =>
    constructor
    · intro hfound
      obtain ⟨probe, hprobe, rfl⟩ := Option.map_eq_some_iff.mp hfound
      exact ⟨hempty, probe, hmem (List.mem_of_find?_eq_some hprobe),
        hholds.mp (List.find?_some hprobe)⟩
    · rintro ⟨-, probe, hget, hprobe⟩
      have hin : probe ∈ s.registry.map Prod.snd :=
        List.mem_map_of_mem (f := Prod.snd) (mem_of_get? hget)
      obtain ⟨found, hfound⟩ := Option.isSome_iff_exists.mp
        (List.find?_isSome.mpr ⟨probe, hin, hholds.mpr hprobe⟩)
      have hgood := hholds.mp (List.find?_some hfound)
      rw [hfound, Option.map_some, h.distinct _ _ _ _ _ (hmem (List.mem_of_find?_eq_some hfound)) hget
        hgood.2 hprobe.2]

/-! ## The ledger -/

theorem book_issue (before after : Registry) (ledger : Ledger) (probeId token : String) :
    book before after (some (probeId, token)) ledger probeId = some token := by
  simp [book, Option.filter]

theorem book_stays {before after : Registry} {ledger : Ledger} (hissue : ∀ e ∈ issue, e.1 ≠ probeId)
    (hbefore : inAgentMode before probeId) (hafter : inAgentMode after probeId) :
    book before after issue ledger probeId = ledger probeId := by
  have hnone : (issue.filter fun e => e.1 = probeId) = none := by
    rw [Option.filter_eq_none_iff]
    exact fun e he hid => hissue e he (of_decide_eq_true hid)
  rw [book, hnone, hbefore, hafter]
  rfl

theorem book_cases {before after : Registry} {ledger : Ledger}
    (h : book before after issue ledger probeId = some token) :
    issue = some (probeId, token) ∨ ledger probeId = some token := by
  rw [book, Option.or_eq_some_iff] at h
  rcases h with h | ⟨-, h⟩
  · obtain ⟨⟨k, t⟩, he, rfl⟩ := Option.map_eq_some_iff.mp h
    obtain ⟨hissue, hk⟩ := Option.filter_eq_some_iff.mp he
    obtain rfl : k = probeId := of_decide_eq_true hk
    exact Or.inl hissue
  · split at h
    · exact Or.inr h
    · simp at h

variable (hashToken) in
/-- The hash of a probe in mode `agent` is that of its token of the ledger. -/
def Current (s : Issuing) : Prop :=
  ∀ probeId probe hash, get? s.registry probeId = some probe → probe.mode = .agent →
    probe.tokenHash = some hash → ∃ token, s.ledger probeId = some token ∧ hash = hashToken token

theorem Current.step (h : Current hashToken s)
    (ha : ¬ EntersWithToken s.registry a) : Current hashToken (s.step hashToken a) := by
  intro probeId probe hash hget hmode hhash
  have heffect : Effect hashToken s.registry a (s.step hashToken a).registry
      (s.registry.step hashToken a).2 := effect s.registry a
  rcases heffect.token hget hhash with ⟨token, hissue, heq⟩ | ⟨hissue, old, hold, hold', hentered⟩
  · refine ⟨token, ?_, heq⟩
    show book _ _ (s.registry.step hashToken a).2 _ _ = _
    rw [hissue]
    exact book_issue _ _ _ _ _
  · have hagent := hentered hmode ha
    obtain ⟨token, htoken, heq⟩ := h probeId old hash hold hagent hold'
    have hbefore : inAgentMode s.registry probeId = true := by
      rw [inAgentMode, hold]
      exact decide_eq_true hagent
    have hafter : inAgentMode (s.step hashToken a).registry probeId = true := by
      rw [inAgentMode, hget]
      exact decide_eq_true hmode
    exact ⟨token, (book_stays hissue hbefore hafter).trans htoken, heq⟩

theorem Current.lastIssued (hinj : Function.Injective hashToken)
    (h : Current hashToken s) (hvalid : Valid hashToken s) : LastIssued hashToken s := by
  intro token probeId hauth
  obtain ⟨-, probe, hget, hmode, hhash⟩ := (authenticate_eq_some hvalid).mp hauth
  obtain ⟨token', htoken, heq⟩ := h probeId probe _ hget hmode hhash
  exact ⟨⟨probe, hget, hmode⟩, htoken.trans (congrArg some (hinj heq).symm)⟩

theorem revoked_step (hfresh : Fresh hashToken s a)
    (hissued : token ∈ s.issued) (hrevoked : ∀ probeId, s.ledger probeId ≠ some token)
    (probeId : String) : (s.step hashToken a).ledger probeId ≠ some token := by
  intro hledger
  rcases book_cases hledger with hissue | hold
  · exact (hfresh _ hissue).2 hissued
  · exact hrevoked probeId hold

/-! ## Runs -/

theorem revocationFinal_of (hinj : Function.Injective hashToken)
    (hvalid : Valid hashToken s) (hcurrent : Current hashToken s)
    (hfresh : Fresh hashToken s a) (ha : ¬ EntersWithToken s.registry a) :
    RevocationFinal hashToken s a := by
  have hlast := (hcurrent.step ha).lastIssued hinj (hvalid.step hinj hfresh)
  refine ⟨hlast, fun token hissued hrevoked => ?_⟩
  have hstays := revoked_step hfresh hissued hrevoked
  refine ⟨hstays, Option.eq_none_iff_forall_ne_some.mpr fun probeId hauth => ?_⟩
  exact hstays probeId (hlast token probeId hauth).2

theorem not_lastIssued_of_enters (hinj : Function.Injective hashToken)
    (hvalid : Valid hashToken s) (hfresh : Fresh hashToken s a)
    (ha : EntersWithToken s.registry a) : ¬ LastIssued hashToken (s.step hashToken a) := by
  cases a with
  | update probeId name mode fields =>
    obtain ⟨rfl, probe, hget, hmode, hhash⟩ := ha
    obtain ⟨hash, hhash⟩ := Option.ne_none_iff_exists'.mp hhash
    obtain ⟨token, -, hne, rfl⟩ := hvalid.hashes probeId probe hash hget hhash
    have hupdated : ∃ p, probe.updated name (some Mode.agent.word) fields = .ok p ∧
        p.mode = .agent ∧ p.tokenHash = probe.tokenHash := ⟨_, rfl, rfl, rfl⟩
    obtain ⟨p, hp, hagent, htoken⟩ := hupdated
    have hdone : s.registry.step hashToken (.update probeId name (some Mode.agent.word) fields) =
        (set s.registry probeId p, none) := by
      rw [Registry.step, updateProbe, hget]
      simp only [hp, Except.map]
    have hafter : get? (s.step hashToken (.update probeId name (some Mode.agent.word)
        fields)).registry probeId = some p := by
      rw [Issuing.step, hdone, get?_set, if_pos rfl]
    have hledger : (s.step hashToken (.update probeId name (some Mode.agent.word) fields)).ledger
        probeId = none := by
      have hbefore : inAgentMode s.registry probeId = false := by
        rw [inAgentMode, hget]
        exact decide_eq_false hmode
      simp [Issuing.step, hdone, book, hbefore]
    intro hlast
    have hauth := (authenticate_eq_some (hvalid.step hinj hfresh)).mpr
      ⟨hne, p, hafter, hagent, htoken.trans hhash⟩
    exact absurd ((hlast token probeId hauth).2.symm.trans hledger) (by simp)
  | _ => exact ha.elim

/-- Where the hash does not collide and every token is fresh, the revocations of a run are final
exactly if no update takes a probe with the hash of a token into mode `agent`. -/
theorem run_revocationFinal_iff (hinj : Function.Injective hashToken) {now : ℚ}
    {acts : List Action} {s : Issuing}
    (hfresh : Run (Issuing.step hashToken) (Fresh hashToken) (Issuing.start now) acts s) :
    Run (Issuing.step hashToken) (RevocationFinal hashToken) (Issuing.start now) acts s ↔
      Run (Issuing.step hashToken) (fun s a => ¬ EntersWithToken s.registry a)
        (Issuing.start now) acts s := by
  constructor
  · intro hfinal
    refine (hfresh.and hfinal).mono (I := Valid hashToken)
      (fun s a hvalid hstep => hvalid.step hinj hstep.1) (fun s a hvalid hstep henters => ?_)
      (valid_start now)
    exact not_lastIssued_of_enters hinj hvalid hstep.1 henters hstep.2.1
  · intro hno
    have hcurrent : Current hashToken (Issuing.start now) := by
      intro probeId probe hash hget _ hhash
      obtain ⟨token, htoken, -⟩ := (@valid_start hashToken now).hashes probeId probe hash hget hhash
      exact nomatch htoken
    refine (hfresh.and hno).mono (I := fun s => Valid hashToken s ∧ Current hashToken s)
      (fun s a hs hstep => ⟨hs.1.step hinj hstep.1, hs.2.step hstep.2⟩)
      (fun s a hs hstep => revocationFinal_of hinj hs.1 hs.2 hstep.1 hstep.2)
      ⟨valid_start now, hcurrent⟩

instance (s : Issuing) (a : Action) : Decidable (Fresh hashToken s a) :=
  inferInstanceAs (Decidable (∀ e ∈ _, _))

end Ledger

/-! ## A probe that leaves and comes back -/

/-- A probe with an agent is created. -/
def createGenova : Action := .create "Genova" "agent" {} ⟨1, [], "first"⟩

/-- It gets a new token. -/
def regenerateGenova : Action := .regenerate "genova" "second"

/-- It is put behind a bastion. -/
def jumpGenova : Action :=
  .update "genova" none (some "jump") { bastion := ⟨some "198.51.100.60", some 22, some "id-hk", none⟩ }

/-- It gets its agent back. -/
def agentGenova : Action := .update "genova" none (some "agent") {}

/-- The file after some operations, with a hash without collisions. -/
def afterActions (acts : List Action) : Issuing := acts.foldl (Issuing.step id) (Issuing.start 0)

/-- A token that is replaced by another one. -/
theorem run_revocationFinal_regenerated :
    Run (Issuing.step id) (RevocationFinal id) (Issuing.start 0) [createGenova, regenerateGenova]
      (afterActions [createGenova, regenerateGenova]) :=
  (run_revocationFinal_iff Function.injective_id
    (Run.cons (by decide) (Run.cons (by decide) (Run.nil _)))).mpr
    (Run.cons id (Run.cons id (Run.nil _)))

/-- The token of a probe that was behind a bastion in between is good again. -/
theorem genova_token_returns : ¬ ∀ (hashToken : String → String) (now : ℚ) (acts : List Action)
    (s : Issuing), Function.Injective hashToken →
    Run (Issuing.step hashToken) (Fresh hashToken) (Issuing.start now) acts s →
    Run (Issuing.step hashToken) (RevocationFinal hashToken) (Issuing.start now) acts s := by
  intro hclaim
  have hfresh : Run (Issuing.step id) (Fresh id) (Issuing.start 0)
      [createGenova, jumpGenova, agentGenova]
      (afterActions [createGenova, jumpGenova, agentGenova]) :=
    Run.cons (by decide) (Run.cons (by decide) (Run.cons (by decide)
      (Run.nil _)))
  have hfinal := (hclaim id 0 _ _ Function.injective_id hfresh).tail.tail.head
  have hauth : authenticate id (afterActions [createGenova, jumpGenova,
      agentGenova]).registry "first" = some "genova" := by decide
  have hledger : (afterActions [createGenova, jumpGenova, agentGenova]).ledger "genova" =
      none := by decide
  exact absurd ((hfinal.1 "first" "genova" hauth).2.symm.trans hledger) (by simp)

end SentinelNet.Probes
