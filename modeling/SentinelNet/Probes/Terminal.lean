import SentinelNet.Probes.Management

/-!
# The terminal

In the terminal of `routers/commands.py` the keys go to the device as they are typed, and the
command is checked when the line ends. `ws_to_ssh` keeps the line on its side, where it knows
backspace and Ctrl-C. The line editor of the device knows more keys than that: Ctrl-U and Ctrl-W
delete, and Ctrl-A, Ctrl-E and the arrows move the cursor. To `ws_to_ssh` these are characters like
any other, so what it checks after one of them is not what the device executes.

* `guarded_of_plain`: without these keys every line that the device executes is safe.
* `reload_behind_cursor`: a line that the device executes and that nobody checked.
-/

namespace SentinelNet.Probes

open PyText
open Inventory (Unicode)
open Sessions (isAdmin)

/-! ## The line editor of the device -/

/-- How far an escape sequence came. -/
inductive Escape where
  | none
  | escape
  | bracket
  deriving DecidableEq

/-- The line with the cursor in it; what is before the cursor is in reverse order. -/
structure LineEditor where
  before : List Char
  after : List Char
  pending : Escape
  deriving DecidableEq

def LineEditor.empty : LineEditor := ⟨[], [], .none⟩

def LineEditor.line (d : LineEditor) : List Char := d.before.reverse ++ d.after

def ctrl (key : Char) : Char := Char.ofNat (key.toNat - 64)

def isEnter (c : Char) : Bool := c = '\r' || c = '\n'

def isBackspace (c : Char) : Bool := c = Char.ofNat 127 || c = ctrl 'H'

def LineEditor.key (d : LineEditor) (c : Char) : LineEditor :=
  match d.pending with
  | .escape => { d with pending := if c = '[' then .bracket else .none }
  | .bracket =>
    match c, d.before, d.after with
    | 'D', b :: before, after => ⟨before, b :: after, .none⟩
    | 'C', before, a :: after => ⟨a :: before, after, .none⟩
    | _, before, after => ⟨before, after, .none⟩
  | .none =>
    if isEnter c || c = ctrl 'C' || c = ctrl 'U' then .empty
    else if isBackspace c then { d with before := d.before.tail }
    else if c = ctrl 'W' then
      { d with before := (d.before.dropWhile isSpace).dropWhile fun b => !isSpace b }
    else if c = ctrl 'A' then { d with before := [], after := d.line }
    else if c = ctrl 'E' then { d with before := d.line.reverse, after := [] }
    else if c = ctrl '[' then { d with pending := .escape }
    else { d with before := c :: d.before }

/-! ## The guard -/

/-- The two sides, with the lines that the device executed and its editor after each one that was
blocked. -/
structure Terminal where
  lineBuf : List Char
  device : LineEditor
  executed : List (List Char)
  cleared : List LineEditor
  deriving DecidableEq

/-- The shell is open. -/
def Terminal.start : Terminal := ⟨[], .empty, [], []⟩

def Terminal.send (t : Terminal) (c : Char) : Terminal :=
  { t with
    device := t.device.key c
    executed := if isEnter c && t.device.pending = .none then t.executed ++ [t.device.line]
      else t.executed }

/-- A character in `ws_to_ssh`. -/
def Terminal.type (allowed : String → Bool) (t : Terminal) (c : Char) : Terminal :=
  if isEnter c then
    let cmd := strip (String.ofList t.lineBuf)
    if cmd ≠ "" ∧ allowed cmd = false then
      let t := t.send (ctrl 'U')
      { t with lineBuf := [], cleared := t.cleared ++ [t.device] }
    else { t.send c with lineBuf := [] }
  else if isBackspace c then { t.send c with lineBuf := t.lineBuf.dropLast }
  else if c = ctrl 'C' then { t.send c with lineBuf := [] }
  else { t.send c with lineBuf := t.lineBuf ++ [c] }

def wsToSsh (allowed : String → Bool) (frames : List String) : Terminal :=
  frames.foldl (fun t frame => frame.toList.foldl (Terminal.type allowed) t) .start

/-- Only safe lines were executed, and every line that was blocked is gone. -/
structure Terminal.Guarded (u : Unicode) (t : Terminal) : Prop where
  safe : ∀ line ∈ t.executed, isCommandSafe u (String.ofList line) = true
  gone : ∀ d ∈ t.cleared, d = .empty

/-- The keys that only the device knows. -/
def editingKeys : List Char := [ctrl 'U', ctrl 'W', ctrl 'A', ctrl 'E', ctrl '[']

/-! ## Two editors -/

section Simulation

variable {u : Unicode} {allowed : String → Bool} {t : Terminal} {c : Char}

theorem isCommandSafe_strip (u : Unicode) (s : String) :
    isCommandSafe u (strip s) = isCommandSafe u s := by
  unfold isCommandSafe matchesInteractive
  rw [strip_strip]

/-- Both sides have the same line, with the cursor at its end. -/
structure Terminal.Mirrored (u : Unicode) (t : Terminal) : Prop where
  device : t.device = ⟨t.lineBuf.reverse, [], .none⟩
  guarded : t.Guarded u

theorem Terminal.Mirrored.line (h : t.Mirrored u) : t.device.line = t.lineBuf := by
  simp [h.device, LineEditor.line]

theorem Terminal.Mirrored.type (hallowed : ∀ s, allowed s = isCommandSafe u s)
    (h : t.Mirrored u) (hplain : c ∉ editingKeys) : (t.type allowed c).Mirrored u := by
  have hpending : t.device.pending = .none := by rw [h.device]
  have hsame : isEnter c = false → (t.send c).executed = t.executed := by
    intro hc
    simp [Terminal.send, hc]
  unfold Terminal.type
  split
  · next henter =>
    dsimp only
    split
    · -- the line is blocked and cleared
      have hcleared : (t.send (ctrl 'U')).device = .empty := by
        simp [Terminal.send, LineEditor.key, hpending]
      have hexecuted : (t.send (ctrl 'U')).executed = t.executed := by
        have hkey : isEnter (ctrl 'U') = false := by decide
        simp [Terminal.send, hkey]
      refine ⟨hcleared, hexecuted ▸ h.guarded.safe, fun d hd => ?_⟩
      rcases List.mem_append.mp hd with hd | hd
      · exact h.guarded.gone d hd
      · rw [List.mem_singleton.mp hd, hcleared]
    · next hnot =>
      have hdevice : (t.send c).device = .empty := by
        simp [Terminal.send, LineEditor.key, hpending, henter]
      have hexecuted : (t.send c).executed = t.executed ++ [t.lineBuf] := by
        simp [Terminal.send, henter, hpending, h.line]
      refine ⟨hdevice, fun line hline => ?_, h.guarded.gone⟩
      rcases List.mem_append.mp (hexecuted ▸ hline) with hline | hline
      · exact h.guarded.safe line hline
      · rw [List.mem_singleton.mp hline, ← isCommandSafe_strip]
        by_cases hempty : strip (String.ofList t.lineBuf) = ""
        · rw [hempty]
          rfl
        · rw [← hallowed]
          exact Bool.eq_true_of_not_eq_false fun hblocked => hnot ⟨hempty, hblocked⟩
  · next henter =>
    have henter' : isEnter c = false := Bool.eq_false_of_not_eq_true henter
    have hguarded : ∀ buf, Terminal.Guarded u { t.send c with lineBuf := buf } := fun buf =>
      ⟨hsame henter' ▸ h.guarded.safe, h.guarded.gone⟩
    simp only [editingKeys, List.mem_cons, List.not_mem_nil, or_false, not_or] at hplain
    obtain ⟨hu, hw, ha, he, hescape⟩ := hplain
    split
    · next hback =>
      refine ⟨?_, hguarded _⟩
      have hctrl : c ≠ ctrl 'C' := by
        rintro rfl
        exact absurd hback (by decide)
      simp [Terminal.send, LineEditor.key, h.device, henter', hctrl, hu, hback]
    · next hback =>
      split
      · next hctrl => exact ⟨by simp [Terminal.send, LineEditor.key, hpending, hctrl,
          LineEditor.empty], hguarded _⟩
      · next hctrl =>
        refine ⟨?_, hguarded _⟩
        simp [Terminal.send, LineEditor.key, h.device, henter', hctrl, hu, hback, hw, ha, he,
          hescape]

end Simulation

/-- Whatever a user types that is subject to the blacklist, in frames of any size: without the keys
that only the device knows, the device executes safe lines only, and its line is empty after one
that was blocked. -/
theorem guarded_of_plain (u : Unicode) (view : RouteView) (me : Caller) (frames : List String)
    (hrole : isAdmin me.role = false) (hsetting : view.cliBlacklistOperators = true)
    (hplain : ∀ frame ∈ frames, ∀ c ∈ frame.toList, c ∉ editingKeys) :
    (wsToSsh (view.commandAllowed me u) frames).Guarded u := by
  have hallowed : ∀ s, view.commandAllowed me u s = isCommandSafe u s := by
    intro s
    simp [RouteView.commandAllowed, hrole, hsetting]
  have hstart : Terminal.start.Mirrored u :=
    ⟨rfl, fun _ h => absurd h List.not_mem_nil, fun _ h => absurd h List.not_mem_nil⟩
  refine (List.foldlRecOn frames _ hstart fun t ht frame hframe => ?_).guarded
  exact List.foldlRecOn frame.toList _ ht fun t' ht' c hc =>
    ht'.type hallowed (hplain frame hframe c hc)

theorem guarded_of_plain_session :
    (wsToSsh (rome.commandAllowed ⟨"ops", .operator⟩ ascii) ["sh", "ow clock\r", "reload\r"]).Guarded
      ascii :=
  guarded_of_plain ascii rome ⟨"ops", .operator⟩ _ (by decide) (by decide) (by decide)

/-- The operator types the end of a line first. -/
theorem reload_behind_cursor : ¬∀ (u : Unicode) (view : RouteView) (me : Caller)
    (frames : List String), isAdmin me.role = false → view.cliBlacklistOperators = true →
    (wsToSsh (view.commandAllowed me u) frames).Guarded u := by
  intro hall
  have hguarded := hall ascii rome ⟨"ops", .operator⟩
    [String.ofList ("eload".toList ++ [ctrl 'A', 'r', '\r'])] (by decide) (by decide)
  exact absurd (hguarded.safe "reload".toList (by decide)) (by decide)

end SentinelNet.Probes
