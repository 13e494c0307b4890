import SentinelNet.Observability.Snapshots

/-!
# The registry of probes

`services/probe_manager.py` keeps the probes in one file: how the central reaches the devices of a
site, and for a probe with an agent the hash of its token.

* `createProbe` to `markBastionVerified`: its operations.
* `updateProbe_ok`: what an update leaves of a probe.
-/

namespace SentinelNet.Probes

open Observability PyDict PyText

/-! ## The file -/

/-- `VALID_MODES`. -/
inductive Mode where
  | central | agent | jump
  deriving DecidableEq

def Mode.word : Mode → String
  | .central => "central"
  | .agent => "agent"
  | .jump => "jump"

def Mode.ofWord (s : String) : Option Mode := [Mode.central, .agent, .jump].find? fun m => m.word = s

/-- The fields of a bastion, of a probe or in a request: `none` where the field is missing. -/
structure Bastion where
  jumpHost : Option String := none
  jumpPort : Option ℤ := none
  jumpIdentity : Option String := none
  deviceIdentity : Option String := none
  deriving DecidableEq

/-- `_BASTION_LINK`: what a verification vouches for. -/
def Bastion.link (b : Bastion) : Option String × Option ℤ × Option String :=
  (b.jumpHost, b.jumpPort, b.jumpIdentity)

/-- `{**probe, **kwargs}`. -/
def Bastion.merge (b given : Bastion) : Bastion where
  jumpHost := given.jumpHost.or b.jumpHost
  jumpPort := given.jumpPort.or b.jumpPort
  jumpIdentity := given.jumpIdentity.or b.jumpIdentity
  deviceIdentity := given.deviceIdentity.or b.deviceIdentity

/-- A probe of the file; `others` are the keys that the agent reports and the flag
`central_manages_devices`. -/
structure Probe where
  id : String
  name : String
  mode : Mode
  tokenHash : Option String
  created : ℚ
  lastSeen : Option ℚ := none
  bastionVerifiedTs : Option ℚ := none
  unlocatedDevices : ℕ := 0
  bastion : Bastion := {}
  others : Dict Json := []

/-- The file, under the ids of the probes. -/
abbrev Registry := Dict Probe

def defaultProbeId : String := "central"

def defaultProbes (now : ℚ) : Registry :=
  [(defaultProbeId, { id := defaultProbeId, name := "Central", mode := .central, tokenHash := none,
                      created := now })]

/-! ## Names -/

/-- A character that a slug keeps. -/
def isSlugChar (c : Char) : Bool := ('a' ≤ c && c ≤ 'z') || ('0' ≤ c && c ≤ '9')

/-- `re.sub(r"[^a-z0-9]+", "-", …)`; the flag says that the last character was replaced. -/
def dashed : Bool → List Char → List Char
  | _, [] => []
  | replaced, c :: cs =>
    if isSlugChar c then c :: dashed false cs
    else if replaced then dashed true cs
    else '-' :: dashed true cs

def slugify (name : String) : String :=
  let slug := ((dashed false ((strip name).toList.flatMap lowerChar)).dropWhile (· = '-')).rdropWhile
    (· = '-')
  if slug.isEmpty then "probe" else String.ofList slug

/-- The id of a new probe: its slug, or where it is taken the slug with the first of the drawn
suffixes that is free. -/
def freeId (reg : Registry) (base : String) (suffixes : List String) : Option String :=
  (base :: suffixes.map fun s => base ++ "-" ++ s).find? fun id => !has reg id

/-! ## Bastions -/

/-- The text of a field, or nothing. -/
def stripped (s : Option String) : String := strip (s.getD "")

def validateJump (b : Bastion) : Except String Bastion :=
  if stripped b.jumpHost = "" then .error "Un sito 'jump' richiede jump_host."
  else if stripped b.jumpIdentity = "" then .error "Un sito 'jump' richiede jump_identity."
  else if 1 ≤ b.jumpPort.getD 22 ∧ b.jumpPort.getD 22 ≤ 65535 then
    .ok ⟨some (stripped b.jumpHost), some (b.jumpPort.getD 22), some (stripped b.jumpIdentity),
      some (stripped b.deviceIdentity)⟩
  else .error "jump_port non valida."

/-! ## Operations -/

section Operations

variable (hashToken : String → String)

/-- What the creation of a probe takes from outside: the clock, the suffixes of `uuid4` and the
token of `secrets.token_urlsafe`. -/
structure Draw where
  now : ℚ
  suffixes : List String
  token : String

def newProbe (id name : String) (mode : Mode) (bastion : Bastion) (draw : Draw) : Probe where
  id := id
  name := strip name
  mode := mode
  tokenHash := if mode = .agent then some (hashToken draw.token) else none
  created := draw.now
  bastion := bastion

/-- `create_probe`: the registry, the id of the probe and the token for its agent.  `none` where the
draws have no free suffix. -/
def createProbe (reg : Registry) (name mode : String) (fields : Bastion) (draw : Draw) :
    Except String (Option (Registry × String × Option String)) :=
  if strip name = "" then .error "Il nome del sito è obbligatorio."
  else
    match Mode.ofWord mode with
    | none => .error ("Modalità non valida: " ++ mode)
    | some m =>
      match if m = .jump then validateJump fields else .ok {} with
      | .error e => .error e
      | .ok bastion =>
        .ok ((freeId reg (slugify name) draw.suffixes).map fun id =>
          (set reg id (newProbe hashToken id name m bastion draw), id,
            if m = .agent then some draw.token else none))

/-- The keyword arguments that the callers of `update_probe` give. -/
structure Fields where
  bastion : Bastion := {}
  others : Dict Json := []

def Probe.rename (probe : Probe) (name : Option String) : Probe :=
  { probe with name := if stripped name = "" then probe.name else stripped name }

/-- The mode of a probe after an update: in mode `central` the token is of no use. -/
def Probe.switch (probe : Probe) (mode : Mode) : Probe :=
  { probe with mode := mode, tokenHash := if mode = .central then none else probe.tokenHash }

/-- The mode of a probe after an update, if it is a mode. -/
def Probe.switchTo (probe : Probe) : Option String → Except String Probe
  | none => .ok probe
  | some word =>
    match Mode.ofWord word with
    | none => .error ("Modalità non valida: " ++ word)
    | some m => .ok (probe.switch m)

/-- A probe in mode `jump` with a validated bastion: a verification vouches for one bastion. -/
def Probe.rebind (probe : Probe) (bastion : Bastion) : Probe :=
  { probe with
    bastion := bastion
    bastionVerifiedTs :=
      if bastion.link = probe.bastion.link then probe.bastionVerifiedTs else none }

/-- The fields of a bastion after an update.  In a mode other than `jump` they are written as they
come. -/
def Probe.given (probe : Probe) (fields : Bastion) : Except String Probe :=
  if probe.mode = .jump then (validateJump (probe.bastion.merge fields)).map probe.rebind
  else .ok { probe with bastion := probe.bastion.merge fields }

def Probe.updated (probe : Probe) (name mode : Option String) (fields : Fields) :
    Except String Probe :=
  (((probe.rename name).switchTo mode).bind fun p => p.given fields.bastion).map fun p =>
    { p with others := assign p.others fields.others }

def updateProbe (reg : Registry) (probeId : String) (name mode : Option String)
    (fields : Fields) : Except String (Bool × Registry) :=
  match get? reg probeId with
  | none => .ok (false, reg)
  | some probe => (probe.updated name mode fields).map fun p => (true, set reg probeId p)

def deleteProbe (reg : Registry) (probeId : String) : Bool × Registry :=
  if probeId = defaultProbeId then (false, reg)
  else if has reg probeId then (true, del reg probeId)
  else (false, reg)

def regenerateToken (reg : Registry) (probeId token : String) : Registry × Option String :=
  match get? reg probeId with
  | none => (reg, none)
  | some probe =>
    if probe.mode = .agent then
      (set reg probeId { probe with tokenHash := some (hashToken token) }, some token)
    else (reg, none)

def markBastionVerified (reg : Registry) (probeId : String) (now : ℚ) : Bool × Registry :=
  match get? reg probeId with
  | none => (false, reg)
  | some probe => (true, set reg probeId { probe with bastionVerifiedTs := some now })

def touchLastSeen (reg : Registry) (probeId : String) (now : ℚ) : Registry :=
  match get? reg probeId with
  | none => reg
  | some probe => set reg probeId { probe with lastSeen := some now }

def recordUnlocatedDevice (reg : Registry) (probeId : String) (count : ℕ) : Registry :=
  match get? reg probeId with
  | none => reg
  | some probe =>
    set reg probeId { probe with unlocatedDevices := probe.unlocatedDevices + count }

def Probe.holds (token : String) (probe : Probe) : Bool :=
  probe.mode = .agent && probe.tokenHash = some (hashToken token)

/-- `authenticate`: the id of the probe whose agent has the token. -/
def authenticate (reg : Registry) (token : String) : Option String :=
  if token = "" then none
  else ((reg.map Prod.snd).find? (Probe.holds hashToken token)).map Probe.id

end Operations

/-! ## What the operations leave -/

theorem Mode.ofWord_word (m : Mode) : Mode.ofWord m.word = some m := by cases m <;> rfl

theorem Mode.word_of_ofWord {s : String} {m : Mode} (h : Mode.ofWord s = some m) : s = m.word := by
  have hfound := List.find?_some h
  exact (of_decide_eq_true hfound).symm

@[simp] theorem rename_mode (probe : Probe) (name : Option String) :
    (probe.rename name).mode = probe.mode := rfl

@[simp] theorem rename_tokenHash (probe : Probe) (name : Option String) :
    (probe.rename name).tokenHash = probe.tokenHash := rfl

variable {probe : Probe} {mode : Option String}

theorem switchTo_ok {p : Probe} (h : probe.switchTo mode = .ok p) :
    (mode = none ∧ p = probe) ∨ ∃ m : Mode, mode = some m.word ∧ p = probe.switch m := by
  cases mode with
  | none => exact Or.inl ⟨rfl, (Except.ok.inj h).symm⟩
  | some word =>
    rw [Probe.switchTo] at h
    cases hm : Mode.ofWord word with
    | none =>
      rw [hm] at h
      simp at h
    | some m =>
      rw [hm] at h
      exact Or.inr ⟨m, congrArg some (Mode.word_of_ofWord hm), (Except.ok.inj h).symm⟩

theorem given_ok {p : Probe} {fields : Bastion} (h : probe.given fields = .ok p) :
    (probe.mode = .jump ∧ ∃ b, validateJump (probe.bastion.merge fields) = .ok b ∧
        p = probe.rebind b) ∨
      probe.mode ≠ .jump ∧ p = { probe with bastion := probe.bastion.merge fields } := by
  rw [Probe.given] at h
  split at h
  · next hjump =>
    cases hb : validateJump (probe.bastion.merge fields) with
    | error e =>
      rw [hb] at h
      exact absurd h (by simp [Except.map])
    | ok b =>
      rw [hb] at h
      exact Or.inl ⟨hjump, b, rfl, (Except.ok.inj h).symm⟩
  · next hjump => exact Or.inr ⟨hjump, (Except.ok.inj h).symm⟩

theorem updated_ok {p : Probe} {name : Option String} {fields : Fields}
    (h : probe.updated name mode fields = .ok p) :
    ∃ q r, (probe.rename name).switchTo mode = .ok q ∧ q.given fields.bastion = .ok r ∧
      p = { r with others := assign r.others fields.others } := by
  rw [Probe.updated] at h
  cases hq : (probe.rename name).switchTo mode with
  | error e =>
    rw [hq] at h
    exact absurd h (by simp [Except.bind, Except.map])
  | ok q =>
    rw [hq] at h
    cases hr : q.given fields.bastion with
    | error e =>
      rw [Except.bind, hr] at h
      exact absurd h (by simp [Except.map])
    | ok r =>
      rw [Except.bind, hr] at h
      exact ⟨q, r, rfl, hr, (Except.ok.inj h).symm⟩

/-- An update leaves the registry as it is or writes the updated probe. -/
theorem updateProbe_ok {reg reg' : Registry} {probeId : String} {name : Option String}
    {fields : Fields} {found : Bool} (h : updateProbe reg probeId name mode fields = .ok (found, reg')) :
    (found = false ∧ get? reg probeId = none ∧ reg' = reg) ∨
      found = true ∧ ∃ probe p, get? reg probeId = some probe ∧
        probe.updated name mode fields = .ok p ∧ reg' = set reg probeId p := by
  rw [updateProbe] at h
  cases hget : get? reg probeId with
  | none =>
    rw [hget] at h
    obtain ⟨rfl, rfl⟩ := Prod.mk.inj (Except.ok.inj h)
    exact Or.inl ⟨rfl, rfl, rfl⟩
  | some probe =>
    rw [hget] at h
    cases hp : probe.updated name mode fields with
    | error e =>
      simp only [hp, Except.map] at h
      simp at h
    | ok p =>
      simp only [hp, Except.map] at h
      obtain ⟨rfl, rfl⟩ := Prod.mk.inj (Except.ok.inj h)
      exact Or.inr ⟨rfl, probe, p, rfl, hp, rfl⟩

theorem deleteProbe_eq (reg : Registry) (probeId : String) :
    deleteProbe reg probeId = (true, del reg probeId) ∨
      deleteProbe reg probeId = (false, reg) := by
  rw [deleteProbe]
  split
  · exact Or.inr rfl
  · split
    · exact Or.inl rfl
    · exact Or.inr rfl

theorem has_of_freeId {reg : Registry} {slug id : String} {suffixes : List String}
    (h : freeId reg slug suffixes = some id) : has reg id = false := by
  rw [freeId] at h
  simpa using List.find?_some h

theorem createProbe_ok {hashToken : String → String} {reg reg' : Registry} {name mode : String}
    {fields : Bastion} {draw : Draw} {id : String} {token : Option String}
    (h : createProbe hashToken reg name mode fields draw = .ok (some (reg', id, token))) :
    freeId reg (slugify name) draw.suffixes = some id ∧
      ∃ (m : Mode) (bastion : Bastion), mode = m.word ∧
      (if m = .jump then validateJump fields else .ok {}) = .ok bastion ∧
      reg' = set reg id (newProbe hashToken id name m bastion draw) ∧
      token = if m = .agent then some draw.token else none := by
  rw [createProbe] at h
  split at h
  · simp at h
  · cases hm : Mode.ofWord mode with
    | none =>
      simp only [hm] at h
      simp at h
    | some m =>
      simp only [hm] at h
      split at h
      · simp at h
      · next bastion hb =>
        obtain ⟨id', hid, heq⟩ := Option.map_eq_some_iff.mp (Except.ok.inj h)
        obtain ⟨rfl, hrest⟩ := Prod.mk.inj heq
        obtain ⟨rfl, rfl⟩ := Prod.mk.inj hrest
        exact ⟨hid, m, bastion, Mode.word_of_ofWord hm, hb, rfl, rfl⟩

end SentinelNet.Probes
