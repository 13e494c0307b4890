import SentinelNet.Lib.Runs
import SentinelNet.Probes.Registry

/-!
# Verified bastions

A verification vouches for one bastion: its host, its port and the identity of the login.  In mode
`jump` an update that points a probe at another bastion takes the verification back; in the other
modes the same fields are written as they come, and the verification stays.

* `updateProbeEp`: the request of the administrator.
* `run_vouchesForOne`: when a verified probe in mode `jump` has the bastion that was verified.
-/

namespace SentinelNet.Probes

open Observability PyDict PyText StepRuns

/-! ## The request -/

/-- `ProbeUpdateSchema`. -/
structure UpdateRequest where
  id : String
  name : Option String := none
  mode : Option String := none
  bastion : Bastion := {}
  centralManagesDevices : Option Bool := none
  confirmedFingerprint : Option String := none

/-- `jump_kwargs`: only the fields that the request has. -/
def UpdateRequest.fields (req : UpdateRequest) : Fields where
  bastion := req.bastion
  others := req.centralManagesDevices.toList.map fun b => ("central_manages_devices", .bool b)

def UpdateRequest.fingerprint (req : UpdateRequest) : Option String :=
  req.confirmedFingerprint.filter (· ≠ "")

/-- A status and a detail. -/
abbrev HttpError := ℕ × String

section Requests

variable (hashToken : String → String) (pinConfirmed : String → ℤ → String → Bool)

/-- `_pin_or_409`, where the request confirms a fingerprint of a probe that is there. -/
def pinned (probe : Probe) (req : UpdateRequest) : Except HttpError Unit :=
  match req.fingerprint with
  | none => .ok ()
  | some fp =>
    let host := (req.bastion.jumpHost.filter (· ≠ "")).or probe.bastion.jumpHost
    let port := ((req.bastion.jumpPort.filter (· ≠ 0)).or
      (probe.bastion.jumpPort.filter (· ≠ 0))).getD 22
    if pinConfirmed (stripped host) port fp then .ok ()
    else .error (409, "Impronta non piu' valida per questo bastione: ripetere il test.")

/-- A probe in mode `agent` without a token gets one. -/
def issueMissingToken (reg : Registry) (probeId token : String) : Registry × Option String :=
  match get? reg probeId with
  | none => (reg, none)
  | some probe =>
    if probe.mode = .agent ∧ probe.tokenHash = none then
      regenerateToken hashToken reg probeId token
    else (reg, none)

def updateProbeEp (reg : Registry) (req : UpdateRequest) (now : ℚ) (token : String) :
    Except HttpError (Registry × Option String) :=
  match get? reg req.id with
  | none => .error (404, "Sonda non trovata.")
  | some probe =>
    match pinned pinConfirmed probe req with
    | .error e => .error e
    | .ok () =>
      match updateProbe reg req.id req.name req.mode req.fields with
      | .error e => .error (400, e)
      | .ok (false, _) => .error (404, "Sonda non trovata.")
      | .ok (true, reg') =>
        .ok (issueMissingToken hashToken
          (if req.fingerprint.isSome then (markBastionVerified reg' req.id now).2 else reg')
          req.id token)

/-! ## What a request leaves -/

def Probe.modeAfter (probe : Probe) (mode : Option String) : Mode :=
  (mode.bind Mode.ofWord).getD probe.mode

variable {probe : Probe}

theorem switchTo_bastion {p : Probe} {mode : Option String} (h : probe.switchTo mode = .ok p) :
    p.mode = probe.modeAfter mode ∧ p.bastion = probe.bastion ∧
      p.bastionVerifiedTs = probe.bastionVerifiedTs := by
  rcases switchTo_ok h with ⟨hmode, heq⟩ | ⟨m, hmode, heq⟩
  · rw [heq, hmode]
    exact ⟨rfl, rfl, rfl⟩
  · rw [heq, hmode, Probe.modeAfter, Option.bind_some, Mode.ofWord_word]
    exact ⟨rfl, rfl, rfl⟩

theorem given_bastion {p : Probe} {fields : Bastion} (h : probe.given fields = .ok p) :
    p.mode = probe.mode ∧
      ((probe.mode = .jump ∧ p.bastionVerifiedTs =
          if p.bastion.link = probe.bastion.link then probe.bastionVerifiedTs else none) ∨
        probe.mode ≠ .jump ∧ p.bastion = probe.bastion.merge fields ∧
          p.bastionVerifiedTs = probe.bastionVerifiedTs) := by
  rcases given_ok h with ⟨hjump, b, -, heq⟩ | ⟨hjump, heq⟩
  · rw [heq]
    exact ⟨rfl, Or.inl ⟨hjump, rfl⟩⟩
  · rw [heq]
    exact ⟨rfl, Or.inr ⟨hjump, rfl, rfl⟩⟩

@[simp] theorem rename_bastion (probe : Probe) (name : Option String) :
    (probe.rename name).bastion = probe.bastion := rfl

@[simp] theorem rename_bastionVerifiedTs (probe : Probe) (name : Option String) :
    (probe.rename name).bastionVerifiedTs = probe.bastionVerifiedTs := rfl

theorem updated_bastion {p : Probe} {name mode : Option String} {fields : Fields}
    (h : probe.updated name mode fields = .ok p) :
    p.mode = probe.modeAfter mode ∧
      ((p.mode = .jump ∧ p.bastionVerifiedTs =
          if p.bastion.link = probe.bastion.link then probe.bastionVerifiedTs else none) ∨
        p.mode ≠ .jump ∧ p.bastion = probe.bastion.merge fields.bastion ∧
          p.bastionVerifiedTs = probe.bastionVerifiedTs) := by
  obtain ⟨q, r, hq, hr, heq⟩ := updated_ok h
  obtain ⟨hmode, hbastion, hverified⟩ := switchTo_bastion hq
  rw [rename_bastion] at hbastion
  rw [rename_bastionVerifiedTs] at hverified
  have hafter : q.mode = probe.modeAfter mode := hmode
  obtain ⟨hsame, hgiven⟩ := given_bastion hr
  rw [hbastion, hverified] at hgiven
  rw [heq]
  refine ⟨hsame.trans hafter, ?_⟩
  show (r.mode = .jump ∧ _) ∨ r.mode ≠ .jump ∧ _
  rw [hsame]
  exact hgiven

variable {hashToken pinConfirmed}

variable {reg : Registry} {probeId : String}

theorem get?_markBastionVerified (h : get? reg probeId = some probe) (now : ℚ) (k : String) :
    get? (markBastionVerified reg probeId now).2 k =
      if k = probeId then some { probe with bastionVerifiedTs := some now } else get? reg k := by
  rw [markBastionVerified, h]
  exact get?_set _ _ _ _

variable {token : String}

theorem get?_issueMissingToken {k : String}
    (h : get? (issueMissingToken hashToken reg probeId token).1 k = some probe) :
    ∃ old, get? reg k = some old ∧ probe.mode = old.mode ∧ probe.bastion = old.bastion ∧
      probe.bastionVerifiedTs = old.bastionVerifiedTs := by
  have hsame (h : get? reg k = some probe) : ∃ old, get? reg k = some old ∧
      probe.mode = old.mode ∧ probe.bastion = old.bastion ∧
      probe.bastionVerifiedTs = old.bastionVerifiedTs := ⟨probe, h, rfl, rfl, rfl⟩
  rw [issueMissingToken] at h
  cases hget : get? reg probeId with
  | none =>
    rw [hget] at h
    exact hsame h
  | some old =>
    rw [hget] at h
    dsimp only at h
    split at h
    · next hagent =>
      rw [regenerateToken, hget] at h
      dsimp only at h
      rw [if_pos hagent.1, get?_set] at h
      split at h
      · next hk =>
        rw [← Option.some.inj h, hk]
        exact ⟨old, hget, rfl, rfl, rfl⟩
      · exact hsame h
    · exact hsame h

/-- What a request that succeeds leaves: the other probes, and the probe that it updates, verified
now if the request confirms a fingerprint. -/
theorem updateProbeEp_ok {reg' : Registry} {req : UpdateRequest} {now : ℚ} {issued : Option String}
    (h : updateProbeEp hashToken pinConfirmed reg req now token = .ok (reg', issued)) {k : String}
    (hget : get? reg' k = some probe) :
    (k ≠ req.id ∧ ∃ old, get? reg k = some old ∧ probe.mode = old.mode ∧
        probe.bastion = old.bastion ∧ probe.bastionVerifiedTs = old.bastionVerifiedTs) ∨
      k = req.id ∧ ∃ old p, get? reg req.id = some old ∧
        old.updated req.name req.mode req.fields = .ok p ∧ probe.mode = p.mode ∧
        probe.bastion = p.bastion ∧ probe.bastionVerifiedTs =
          if req.fingerprint.isSome then some now else p.bastionVerifiedTs := by
  rw [updateProbeEp] at h
  split at h
  · simp at h
  · split at h
    · simp at h
    · split at h
      · simp at h
      · simp at h
      · next updated hupdate =>
        rcases updateProbe_ok hupdate with ⟨hfalse, -, -⟩ | ⟨-, old, p, hold, hp, rfl⟩
        · simp at hfalse
        · have hreg := congrArg Prod.fst (Except.ok.inj h)
          rw [← show _ = reg' from hreg] at hget
          obtain ⟨q, hq, hmode, hbastion, hverified⟩ := get?_issueMissingToken hget
          rw [hmode, hbastion, hverified]
          have hset : get? (set reg req.id p) req.id = some p := by rw [get?_set, if_pos rfl]
          by_cases hk : k = req.id
          · refine Or.inr ⟨hk, old, p, hold, hp, ?_⟩
            subst hk
            split at hq
            · next hfp =>
              rw [get?_markBastionVerified hset, if_pos rfl] at hq
              rw [← Option.some.inj hq]
              exact ⟨rfl, rfl, (if_pos hfp).symm⟩
            · next hfp =>
              rw [hset] at hq
              rw [← Option.some.inj hq]
              exact ⟨rfl, rfl, (if_neg hfp).symm⟩
          · refine Or.inl ⟨hk, q, ?_, rfl, rfl, rfl⟩
            split at hq
            · rw [get?_markBastionVerified hset, if_neg hk, get?_set, if_neg hk] at hq
              exact hq
            · rw [get?_set, if_neg hk] at hq
              exact hq

/-! ## Runs -/

/-- What is done to probes that may have a bastion. -/
inductive BastionAction where
  | create (name mode : String) (fields : Bastion) (draw : Draw)
  | update (req : UpdateRequest) (now : ℚ) (token : String)
  | verify (probeId : String) (now : ℚ)
  | delete (probeId : String)

/-- Host, port and identity of a bastion. -/
abbrev Link := Option String × Option ℤ × Option String

/-- The file, and for each probe the bastion that was verified last. -/
structure Vouching where
  registry : Registry
  vouched : String → Option Link

/-- The bastion of a probe is verified now. -/
def Vouching.note (s : Vouching) (probeId : String) : Vouching :=
  match get? s.registry probeId with
  | none => s
  | some probe => { s with vouched := Function.update s.vouched probeId (some probe.bastion.link) }

variable (hashToken pinConfirmed) in
/-- An action beside the bastions that were verified.  A request that fails changes nothing. -/
def Vouching.step (s : Vouching) : BastionAction → Vouching
  | .create name mode fields draw =>
    match createProbe hashToken s.registry name mode fields draw with
    | .ok (some (reg', _, _)) => { s with registry := reg' }
    | _ => s
  | .update req now token =>
    match updateProbeEp hashToken pinConfirmed s.registry req now token with
    | .ok (reg', _) =>
      if req.fingerprint.isSome then Vouching.note { s with registry := reg' } req.id
      else { s with registry := reg' }
    | .error _ => s
  | .verify probeId now =>
    Vouching.note { s with registry := (markBastionVerified s.registry probeId now).2 } probeId
  | .delete probeId => { s with registry := (deleteProbe s.registry probeId).2 }

/-- The default file, where nothing was verified. -/
def Vouching.start (now : ℚ) : Vouching := ⟨defaultProbes now, fun _ => none⟩

/-- A verified probe in mode `jump` has the bastion that was verified. -/
def VouchesForOne (s : Vouching) : Prop :=
  ∀ probeId probe, get? s.registry probeId = some probe → probe.mode = .jump →
    probe.bastionVerifiedTs ≠ none → s.vouched probeId = some probe.bastion.link

/-- A request that confirms no fingerprint changes the bastion of a verified probe, which is in a
mode other than `jump` afterwards. -/
def ChangesUnseen (s : Vouching) : BastionAction → Prop
  | .update req _ _ => req.fingerprint = none ∧ ∃ probe, get? s.registry req.id = some probe ∧
      probe.bastionVerifiedTs ≠ none ∧ probe.modeAfter req.mode ≠ .jump ∧
      (probe.bastion.merge req.bastion).link ≠ probe.bastion.link
  | _ => False

/-- A verified probe has, in any mode, the bastion that was verified. -/
def VouchesInAllModes (s : Vouching) : Prop :=
  ∀ probeId probe, get? s.registry probeId = some probe → probe.bastionVerifiedTs ≠ none →
    s.vouched probeId = some probe.bastion.link

theorem note_registry (s : Vouching) (probeId : String) :
    (s.note probeId).registry = s.registry := by
  rw [Vouching.note]
  split
  · rfl
  · rfl

variable {s : Vouching}

theorem note_vouched (h : get? s.registry probeId = some probe) :
    (s.note probeId).vouched probeId = some probe.bastion.link := by
  rw [Vouching.note, h]
  exact Function.update_self ..

theorem note_vouched_of_ne {k : String} (h : k ≠ probeId) :
    (s.note probeId).vouched k = s.vouched k := by
  rw [Vouching.note]
  split
  · rfl
  · exact Function.update_of_ne h ..

theorem VouchesInAllModes.update (h : VouchesInAllModes s) {req : UpdateRequest} {now : ℚ}
    (hseen : ¬ ChangesUnseen s (.update req now token)) :
    VouchesInAllModes (s.step hashToken pinConfirmed (.update req now token)) := by
  rw [Vouching.step]
  split
  · next reg' issued hep =>
    split
    · next hfp =>
      intro k probe hget hverified
      rw [note_registry] at hget
      by_cases hk : k = req.id
      · subst hk
        exact note_vouched hget
      · rw [note_vouched_of_ne hk]
        rcases updateProbeEp_ok hep hget with ⟨-, old, hold, -, hbastion, hts⟩ | ⟨hid, -⟩
        · rw [hbastion]
          exact h k old hold (hts ▸ hverified)
        · exact absurd hid hk
    · next hfp =>
      have hnone : req.fingerprint = none := Option.not_isSome_iff_eq_none.mp hfp
      intro k probe hget hverified
      rcases updateProbeEp_ok hep hget with ⟨-, old, hold, -, hbastion, hts⟩ |
        ⟨rfl, old, p, hold, hp, -, hbastion, hts⟩
      · rw [hbastion]
        exact h k old hold (hts ▸ hverified)
      · rw [if_neg hfp] at hts
        rw [hts] at hverified
        rw [hbastion]
        obtain ⟨hmode, ⟨hjump, hkept⟩ | ⟨hother, hmerged, hkept⟩⟩ := updated_bastion hp
        · rw [hkept] at hverified
          split at hverified
          · next hlink =>
            rw [hlink]
            exact h _ old hold hverified
          · exact absurd rfl hverified
        · rw [hkept] at hverified
          have hlink : p.bastion.link = old.bastion.link := by
            by_contra hne
            exact hseen ⟨hnone, old, hold, hverified, hmode ▸ hother, hmerged ▸ hne⟩
          rw [hlink]
          exact h _ old hold hverified
  · exact h

theorem VouchesInAllModes.step (h : VouchesInAllModes s) {a : BastionAction}
    (hseen : ¬ ChangesUnseen s a) :
    VouchesInAllModes (s.step hashToken pinConfirmed a) := by
  cases a with
  | create name mode fields draw =>
    rw [Vouching.step]
    split
    · next reg' id token hcreate =>
      obtain ⟨-, m, bastion, -, -, rfl, -⟩ := createProbe_ok hcreate
      intro k probe hget hverified
      dsimp only at hget
      rw [get?_set] at hget
      split at hget
      · rw [← Option.some.inj hget] at hverified
        exact absurd rfl hverified
      · exact h k probe hget hverified
    · exact h
  | update req now token => exact h.update hseen
  | verify probeId now =>
    intro k probe hget hverified
    rw [Vouching.step, note_registry] at hget
    by_cases hk : k = probeId
    · subst hk
      exact note_vouched hget
    · rw [Vouching.step, note_vouched_of_ne hk]
      dsimp only at hget
      rw [markBastionVerified] at hget
      split at hget
      · exact h k probe hget hverified
      · rw [get?_set, if_neg hk] at hget
        exact h k probe hget hverified
  | delete probeId =>
    intro k probe hget hverified
    rw [Vouching.step] at hget
    dsimp only at hget
    rcases deleteProbe_eq s.registry probeId with hdelete | hdelete
    · rw [hdelete, get?_del] at hget
      split at hget
      · simp at hget
      · exact h k probe hget hverified
    · rw [hdelete] at hget
      exact h k probe hget hverified

/-- In every run in which no request changes the bastion of a verified probe unseen, a verified
probe in mode `jump` has the bastion that was verified. -/
theorem run_vouchesForOne {now : ℚ} {acts : List BastionAction} {s : Vouching}
    (h : Run (Vouching.step hashToken pinConfirmed) (fun s a => ¬ ChangesUnseen s a)
      (Vouching.start now) acts s) : VouchesForOne s := by
  have hstart : VouchesInAllModes (Vouching.start now) := by
    intro probeId probe hget hverified
    rw [Vouching.start, defaultProbes, get?_cons] at hget
    split at hget
    · rw [← Option.some.inj hget] at hverified
      exact absurd rfl hverified
    · simp at hget
  have hall := h.invariant (fun s a hs ha => hs.step ha) hstart
  exact fun probeId probe hget _ hverified => hall probeId probe hget hverified

end Requests

/-! ## A bastion that is changed in another mode -/

/-- A probe behind a bastion. -/
def createPadova : BastionAction :=
  .create "Padova" "jump" ⟨some "198.51.100.60", some 22, some "id-hk", none⟩ ⟨1, [], ""⟩

/-- Its bastion answered a test. -/
def verifyPadova : BastionAction := .verify "padova" 2

/-- The states of some actions, with a hash without collisions and no fingerprint that was seen. -/
def afterBastionActions (acts : List BastionAction) : Vouching :=
  acts.foldl (Vouching.step id fun _ _ _ => false) (Vouching.start 0)

/-- The bastion of the probe is changed in mode `jump`. -/
def movePadova : BastionAction :=
  .update { id := "padova", bastion := { jumpHost := some "198.51.100.61" } } 3 ""

theorem movePadova_seen :
    ¬ ChangesUnseen (afterBastionActions [createPadova, verifyPadova]) movePadova := by
  rintro ⟨-, probe, hget, -, hmode, -⟩
  have hfound : (get? (afterBastionActions [createPadova, verifyPadova]).registry "padova").map
      Probe.mode = some .jump := by decide
  exact hmode (Option.some.inj ((congrArg (Option.map Probe.mode) hget).symm.trans hfound))

/-- A probe whose bastion is changed in mode `jump`. -/
theorem run_vouchesForOne_changed :
    VouchesForOne (afterBastionActions [createPadova, verifyPadova, movePadova]) :=
  @run_vouchesForOne id (fun _ _ _ => false) 0 [createPadova, verifyPadova, movePadova] _
    (Run.cons id (Run.cons id (Run.cons movePadova_seen (Run.nil _))))

/-- The bastion of the probe is changed in mode `central`, and the probe goes back. -/
def detourPadova : List BastionAction :=
  [createPadova, verifyPadova, .update { id := "padova", mode := some "central" } 3 "",
    .update { id := "padova", bastion := { jumpHost := some "198.51.100.61" } } 4 "",
    .update { id := "padova", mode := some "jump" } 5 ""]

/-- A probe whose bastion is changed in mode `central` is still verified when it is back. -/
theorem padova_verified : ¬ ∀ (hashToken : String → String)
    (pinConfirmed : String → ℤ → String → Bool) (now : ℚ) (acts : List BastionAction) (s : Vouching),
    Run (Vouching.step hashToken pinConfirmed) (fun _ _ => True) (Vouching.start now) acts s →
      VouchesForOne s := by
  intro hclaim
  have hvouches := hclaim id (fun _ _ _ => false) 0 detourPadova (afterBastionActions detourPadova)
    (Run.cons trivial (Run.cons trivial (Run.cons trivial (Run.cons trivial (Run.cons trivial
      (Run.nil _))))))
  have hlink : (afterBastionActions detourPadova).vouched "padova" =
      some (some "198.51.100.60", some 22, some "id-hk") := by decide
  have hprobe : (get? (afterBastionActions detourPadova).registry "padova").any fun probe =>
      probe.mode = .jump && probe.bastionVerifiedTs.isSome &&
        probe.bastion.jumpHost = some "198.51.100.61" := by decide
  obtain ⟨probe, hget, hall⟩ := Option.any_eq_true _ _ |>.mp hprobe
  simp only [Bool.and_eq_true, decide_eq_true_eq] at hall
  have hsame := hvouches "padova" probe hget hall.1.1 (Option.isSome_iff_ne_none.mp hall.1.2)
  have hhost := congrArg Prod.fst (Option.some.inj (hlink.symm.trans hsame))
  exact absurd (hhost.trans hall.2) (by simp)

end SentinelNet.Probes
