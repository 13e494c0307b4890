import SentinelNet.Lib.Text
import SentinelNet.Lib.Runs

/-!
# What is notified to whom

`emit` of `services/notifications.py` turns an event into rows of an outbox, one for each user and
each rule that wants it.

* `subscribers`: the users and the rules that want a notice.
* `inQuietHours`, `dueTs`: when a notice is due.
* `isSuppressed`: whether it is one too many.
* `notify`: a notice is queued for a subscriber, or suppressed.
* `emit`: an event, for all subscribers in turn.
-/

namespace SentinelNet.Notifications

/-! ## Events -/

inductive Kind where
  | incidentOpened
  | siemAlert
  | deviceDown
  | deviceUp
  | cveNew
  deriving DecidableEq

inductive Severity where
  | low
  | medium
  | high
  | critical
  deriving DecidableEq

def Severity.rank : Severity → ℕ
  | .low => 0
  | .medium => 1
  | .high => 2
  | .critical => 3

/-- A severity as it comes: a text, a whole number or a score. -/
inductive RawSeverity where
  | text (s : String)
  | int (n : ℤ)
  | score (q : ℚ)

def ofScore (val : ℚ) : Severity :=
  if 9 ≤ val then .critical
  else if 7 ≤ val then .high
  else if 4 ≤ val then .medium
  else .low

def namedSeverity (s : String) : Option Severity :=
  if s = "critical" then some .critical
  else if s = "high" then some .high
  else if s = "medium" then some .medium
  else if s = "low" then some .low
  else none

/-- `normalize_severity`; `float` reads a text as a number, where it is one. -/
def normalizeSeverity (float : String → Option ℚ) : RawSeverity → Severity
  | .text s =>
    match namedSeverity (PyText.strip (PyText.lower s)) with
    | some severity => severity
    | none => ((float (PyText.strip (PyText.lower s))).map ofScore).getD .low
  | .int n =>
    if 0 ≤ n ∧ n ≤ 7 then
      if n ≤ 2 then .critical
      else if n = 3 then .high
      else if n = 4 then .medium
      else .low
    else ofScore n
  | .score q => ofScore q

/-- The arguments of `emit`. -/
structure Event where
  kind : Kind
  deviceIp : Option String
  severity : RawSeverity
  title : String
  ctx : String
  dedupKey : Option String
  tenant : Option String

/-- An event with its severity on the scale and its group. -/
structure Notice where
  kind : Kind
  severity : Severity
  deviceIp : Option String
  grp : Option String
  title : String
  ctx : String
  dedupKey : Option String

/-! ## Users and rules -/

/-- What a preference and a rule have in common. -/
structure Filter where
  enabled : Bool
  kinds : List Kind
  minSeverity : Severity
  groups : List String
  digest : Bool
  digestEveryMin : ℕ
  quietStart : Option (Fin 1440)
  quietEnd : Option (Fin 1440)
  quietBypassCritical : Bool
  deriving DecidableEq

/-- The preferences of a user who saved none. -/
def Filter.default : Filter where
  enabled := true
  kinds := [.incidentOpened, .siemAlert, .deviceDown, .deviceUp, .cveNew]
  minSeverity := .low
  groups := []
  digest := false
  digestEveryMin := 60
  quietStart := none
  quietEnd := none
  quietBypassCritical := true

structure User where
  name : String
  email : String
  disabled : Bool
  pendingApproval : Bool
  groups : List String

structure Rule where
  id : ℕ
  recipients : List String
  filter : Filter

/-- The settings, the accounts, the preferences, the rules and the devices with their groups. -/
structure Config where
  mailEnabled : Bool
  users : List User
  prefs : List (String × Filter)
  rules : List Rule
  devices : List (String × String)

/-- Whom a row of the outbox is for: `user:<name>` or `rule:<id>`. -/
inductive Target where
  | user (name : String)
  | rule (id : ℕ)
  deriving DecidableEq

/-- A target that wants a notice, with the addresses that its rows of the log name. -/
structure Subscriber where
  target : Target
  addresses : List String
  filter : Filter
  deriving DecidableEq

def Config.userPrefs (c : Config) (name : String) : Filter :=
  ((c.prefs.find? fun p => p.1 = name).map Prod.snd).getD Filter.default

/-- The group of an event: that of its tenant, or the only one of its address. -/
def resolveGroup (c : Config) (e : Event) : Option String :=
  match e.tenant with
  | some tenant => some tenant
  | none =>
    match ((c.devices.filter fun d => some d.1 = e.deviceIp ∧ d.1 ≠ "").map Prod.snd).dedup with
    | [grp] => some grp
    | _ => none

/-- An event with its severity and its group. -/
def Event.notice (float : String → Option ℚ) (c : Config) (e : Event) : Notice where
  kind := e.kind
  severity := normalizeSeverity float e.severity
  deviceIp := e.deviceIp
  grp := resolveGroup c e
  title := e.title
  ctx := e.ctx
  dedupKey := e.dedupKey

def inGroups (groups : List String) : Option String → Bool
  | none => false
  | some grp => grp ∈ groups

def Filter.admits (f : Filter) (n : Notice) : Bool :=
  n.kind ∈ f.kinds ∧ f.minSeverity.rank ≤ n.severity.rank ∧
    (f.groups = [] ∨ inGroups f.groups n.grp)

def Config.userSubscriber (c : Config) (n : Notice) (u : User) : Option Subscriber :=
  if u.disabled ∨ u.pendingApproval then none
  else if '@' ∉ (PyText.strip u.email).toList then none
  else if ¬ (c.userPrefs u.name).enabled then none
  else if u.groups ≠ [] ∧ ¬ inGroups u.groups n.grp then none
  else if ¬ (c.userPrefs u.name).admits n then none
  else some ⟨.user u.name, [PyText.strip u.email], c.userPrefs u.name⟩

def ruleSubscriber (n : Notice) (r : Rule) : Option Subscriber :=
  if ¬ r.filter.enabled then none
  else if r.recipients = [] then none
  else if ¬ r.filter.admits n then none
  else some ⟨.rule r.id, r.recipients, r.filter⟩

/-- The users and the rules that want a notice. -/
def Config.subscribers (c : Config) (n : Notice) : List Subscriber :=
  c.users.filterMap (c.userSubscriber n) ++ c.rules.filterMap (ruleSubscriber n)

/-! ## Quiet hours -/

def minuteOfDay (t : ℤ) : ℤ := t / 60 % 1440

/-- An instant is in the quiet hours. -/
def isQuiet (quietStart quietEnd : ℤ) (t : ℤ) : Bool :=
  if quietStart ≤ quietEnd then quietStart ≤ minuteOfDay t ∧ minuteOfDay t < quietEnd
  else quietStart ≤ minuteOfDay t ∨ minuteOfDay t < quietEnd

def nextAt (minute : ℤ) (t : ℤ) : ℤ :=
  if t < t / 86400 * 86400 + minute * 60 then t / 86400 * 86400 + minute * 60
  else t / 86400 * 86400 + minute * 60 + 86400

def inQuietHours (quietStart quietEnd : Option (Fin 1440)) (t : ℤ) : Bool × ℤ :=
  match quietStart, quietEnd with
  | some quietStart, some quietEnd =>
    if isQuiet quietStart quietEnd t then (true, nextAt quietEnd t) else (false, t)
  | _, _ => (false, t)

def Filter.exempts (f : Filter) (severity : Severity) : Bool :=
  severity = .critical ∧ f.quietBypassCritical

/-- When a notice is due. -/
def Filter.dueTs (f : Filter) (severity : Severity) (now : ℤ) : ℤ :=
  let due := if f.digest then now + f.digestEveryMin * 60 else now
  let (inQuiet, defer) := inQuietHours f.quietStart f.quietEnd now
  if inQuiet ∧ ¬ f.exempts severity then max due defer else due

/-! ## The outbox and the log -/

/-- A row of `notify_outbox`. -/
structure Item where
  id : ℕ
  target : Target
  kind : Kind
  severity : Severity
  deviceIp : Option String
  grp : Option String
  title : String
  ctx : String
  dedupKey : Option String
  createdTs : ℤ
  dueTs : ℤ
  attempts : ℕ
  deriving DecidableEq

inductive Status where
  | sent
  | failed
  | suppressed

/-- A row of `notify_log`; the kind of a digest is none of the kinds. -/
structure LogRow where
  ts : ℤ
  target : Target
  recipient : String
  kind : Option Kind
  title : String
  status : Status
  error : Option String
  itemCount : ℕ

def floodWindow : ℤ := 1800

/-- Two characters that `LIKE` takes for the same. -/
def sameLetter (c d : Char) : Bool := c.toLower = d.toLower

/-- `LIKE`, on the pattern and the text. -/
def like : List Char → List Char → Bool
  | [], text => text = []
  | c :: pattern, text =>
    if c = '%' then text.tails.any fun rest => like pattern rest
    else
      match text with
      | [] => false
      | d :: rest => (c = '_' || sameLetter c d) && like pattern rest

def LogRow.names (r : LogRow) (target : Target) (key : String) (cutoff : ℤ) : Bool :=
  r.target = target ∧ cutoff ≤ r.ts ∧
    ∃ error ∈ r.error, like ('%' :: key.toList ++ ['%']) error.toList = true

def isSuppressed (outbox : List Item) (log : List LogRow) (target : Target) (key : String) (now : ℤ) :
    Bool :=
  (outbox.any fun it =>
      it.target = target ∧ it.dedupKey = some key ∧ now - floodWindow ≤ it.createdTs) ||
    log.any fun r => r.names target key (now - floodWindow)

def Notice.key (n : Notice) : Option String := n.dedupKey.filter fun key => key ≠ ""

/-- The outbox and the log. -/
structure Store where
  outbox : List Item
  log : List LogRow
  nextId : ℕ

/-- The row of the outbox for a subscriber. -/
def item (id : ℕ) (n : Notice) (sub : Subscriber) (now : ℤ) : Item where
  id := id
  target := sub.target
  kind := n.kind
  severity := n.severity
  deviceIp := n.deviceIp
  grp := n.grp
  title := n.title
  ctx := n.ctx
  dedupKey := n.dedupKey
  createdTs := now
  dueTs := sub.filter.dueTs n.severity now
  attempts := 0

def suppressedRows (n : Notice) (sub : Subscriber) (key : String) (now : ℤ) : List LogRow :=
  sub.addresses.map fun address =>
    { ts := now
      target := sub.target
      recipient := address
      kind := some n.kind
      title := n.title
      status := .suppressed
      error := some ("Anti-flood dedup_key: " ++ key)
      itemCount := 1 }

def Store.suppresses (s : Store) (n : Notice) (target : Target) (now : ℤ) : Bool :=
  match n.key with
  | none => false
  | some key => isSuppressed s.outbox s.log target key now

def Store.notify (s : Store) (n : Notice) (now : ℤ) (sub : Subscriber) : Store :=
  if s.suppresses n sub.target now then
    { s with log := s.log ++ suppressedRows n sub (n.key.getD "") now }
  else
    { s with outbox := s.outbox ++ [item s.nextId n sub now], nextId := s.nextId + 1 }

def Store.emit (float : String → Option ℚ) (c : Config) (s : Store) (e : Event) (now : ℤ) : Store :=
  if c.mailEnabled then
    (c.subscribers (e.notice float c)).foldl (fun s sub => s.notify (e.notice float c) now sub) s
  else s

end SentinelNet.Notifications
