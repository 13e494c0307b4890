import SentinelNet.Inventory.Hosts

/-!
# The file of an import

`_read_inventory_csv` reads a file of devices: it finds the separator and the columns in the first
line, and takes a row for every line that is not blank.

* `canonicalHeader`: the column that a header names.
* `readInventoryCsv`: the rows of a file with the numbers of their lines.
* `readRecords_singleton`: the first line of a file that is read is read by itself.
-/

namespace SentinelNet.Inventory

open Observability PyText

/-! ## `csv.reader` -/

inductive FieldState where
  | start
  | inField
  | inQuoted
  | quoteInQuoted
  deriving DecidableEq

structure Reading where
  fields : List String
  field : List Char
  state : FieldState

/-- Nothing was read of a record. -/
def Reading.empty : Reading := ⟨[], [], .start⟩

/-- `csv.field_size_limit()`. -/
def fieldLimit : ℕ := 131072

/-- The quotation mark. -/
def quotechar : Char := Char.ofNat 34

/-- A character of a field, unless the field is too long. -/
def Reading.add (r : Reading) (c : Char) (state : FieldState) : Option Reading :=
  if fieldLimit ≤ r.field.length then none
  else some { r with field := r.field ++ [c], state := state }

def Reading.save (r : Reading) : Reading := ⟨r.fields ++ [String.ofList r.field], [], .start⟩

/-- A character. -/
def Reading.read (delimiter : Char) (r : Reading) (c : Char) : Option Reading :=
  match r.state with
  | .start =>
    if c = quotechar then some { r with state := .inQuoted }
    else if c = delimiter then some r.save
    else r.add c .inField
  | .inField => if c = delimiter then some r.save else r.add c .inField
  | .inQuoted =>
    if c = quotechar then some { r with state := .quoteInQuoted } else r.add c .inQuoted
  | .quoteInQuoted =>
    if c = quotechar then r.add c .inQuoted
    else if c = delimiter then some r.save
    else r.add c .inField

def Reading.readLine (delimiter : Char) (r : Reading) (line : List Char) : Option Reading :=
  line.foldlM (Reading.read delimiter) r

/-- The records of some lines, after the lines of a record whose quotation is open, if there is
one; `none` is `csv.Error`. -/
def readRecords (delimiter : Char) : Option Reading → List (List Char) → Option (List (List String))
  | none, [] => some []
  | some r, [] => some [r.save.fields]
  | none, [] :: lines => (readRecords delimiter none lines).map ([] :: ·)
  | none, (c :: line) :: lines =>
    (Reading.empty.readLine delimiter (c :: line)).bind fun r =>
      if r.state = .inQuoted then readRecords delimiter (some r) lines
      else (readRecords delimiter none lines).map (r.save.fields :: ·)
  | some r, line :: lines =>
    (r.readLine delimiter line).bind fun r =>
      if r.state = .inQuoted then readRecords delimiter (some r) lines
      else (readRecords delimiter none lines).map (r.save.fields :: ·)

/-! ## Columns -/

inductive Column where
  | ip
  | username
  | password
  | enableSecret
  | hostname
  | group
  | probe
  | location
  | vendor
  | profile
  | sshPort
  | transports
  | snmpCommunity
  | snmpDisabled
  deriving DecidableEq

def csvAliases : List (String × Column) :=
  [("ip", .ip), ("indirizzo", .ip), ("indirizzoip", .ip), ("host", .ip), ("mgmtip", .ip),
    ("ipaddress", .ip),
    ("username", .username), ("user", .username), ("utente", .username), ("login", .username),
    ("password", .password), ("pass", .password), ("pwd", .password),
    ("enablesecret", .enableSecret), ("enable", .enableSecret), ("secret", .enableSecret),
    ("enablepassword", .enableSecret),
    ("hostname", .hostname), ("nome", .hostname), ("name", .hostname), ("device", .hostname),
    ("nomeapparato", .hostname),
    ("group", .group), ("gruppo", .group), ("tenant", .group), ("organization", .group),
    ("organizzazione", .group), ("org", .group),
    ("probe", .probe), ("sonda", .probe), ("site", .probe),
    ("location", .location), ("sede", .location),
    ("vendor", .vendor), ("marca", .vendor), ("produttore", .vendor), ("brand", .vendor),
    ("profile", .profile), ("profilo", .profile),
    ("sshport", .sshPort), ("porta", .sshPort), ("portassh", .sshPort),
    ("transports", .transports), ("trasporti", .transports),
    ("snmpcommunity", .snmpCommunity), ("communitysnmp", .snmpCommunity),
    ("snmpdisabled", .snmpDisabled), ("snmpescluso", .snmpDisabled)]

/-- What the import uses of Python's tables of Unicode. -/
structure Unicode where
  isalnum : Char → Bool
  casefold : String → String

def canonicalHeader (u : Unicode) (name : String) : Option Column :=
  (csvAliases.find? fun a =>
    a.1 = String.ofList ((lowerText name).toList.filter u.isalnum)).map Prod.snd

/-- `_delimiter`: the first of the separators that the line has most of. -/
def delimiter (headerLine : List Char) : Char :=
  let best := [';', '\t', '|'].foldl
    (fun d c => if headerLine.count d < headerLine.count c then c else d) ','
  if headerLine.count best = 0 then ',' else best

/-! ## Rows -/

/-- The cells of a row; a column that the file does not have is empty. -/
structure Record where
  cell : Column → String
  trimmed : ∀ c, strip (cell c) = cell c

/-- A row without cells. -/
def Record.empty : Record := ⟨fun _ => "", fun _ => rfl⟩

/-- A row with another cell. -/
def Record.put (rec : Record) (header : Option Column × String) : Record :=
  match header.1 with
  | none => rec
  | some c =>
    { cell := fun c' => if c' = c then strip header.2 else rec.cell c'
      trimmed := fun c' => by
        split
        · exact strip_strip header.2
        · exact rec.trimmed c' }

/-- Why a file is not read: `ValueError` with a text, or `csv.Error`. -/
inductive FileError where
  | value (message : String)
  | fieldLimit

/-- The mark that a spreadsheet writes at the front of a file. -/
def bom : Char := Char.ofNat 0xfeff

def fileLines (raw : String) : List (List Char) :=
  splitlinesChars (stripChars (raw.toList.dropWhile (· = bom)))

/-- The row of a line, unless it is blank. -/
def lineRecord (header : List (Option Column)) (values : List String × ℕ) : Option (ℕ × Record) :=
  if values.1.any fun v => strip v ≠ "" then
    some (values.2, (header.zip values.1).foldl Record.put Record.empty)
  else none

def readInventoryCsv (u : Unicode) (raw : String) : Except FileError (List (ℕ × Record)) :=
  match fileLines raw with
  | [] => .error (.value "File CSV vuoto.")
  | headerLine :: lines =>
    match readRecords (delimiter headerLine) none (headerLine :: lines) with
    | none => .error .fieldLimit
    | some [] => .error (.value "File CSV vuoto.")
    | some (first :: rows) =>
      if some Column.ip ∈ first.map (canonicalHeader u) then
        .ok ((rows.zipIdx 2).filterMap (lineRecord (first.map (canonicalHeader u))))
      else
        .error (.value ("Colonna IP non trovata. Intestazioni lette: " ++
          orElse (join ", " (first.map strip)) "(nessuna)" ++
          ". La prima riga deve contenere i nomi delle colonne, almeno 'IP'."))

/-- `_csv_columns`: the headers, with the columns that they name. -/
def csvColumns (u : Unicode) (raw : String) : Option (List (String × Option Column)) :=
  match fileLines raw with
  | [] => some []
  | headerLine :: _ =>
    (readRecords (delimiter headerLine) none [headerLine]).map fun records =>
      (records.headD []).map fun h => (strip h, canonicalHeader u h)

/-- The first line of a file that is read is read by itself. -/
theorem readRecords_singleton {d : Char} {line : List Char} {lines : List (List Char)}
    {records : List (List String)} (h : readRecords d none (line :: lines) = some records) :
    ∃ records', readRecords d none [line] = some records' := by
  cases line with
  | nil => exact ⟨[[]], rfl⟩
  | cons c line =>
    rw [readRecords] at h ⊢
    obtain ⟨r, hread, -⟩ := Option.bind_eq_some_iff.mp h
    rw [hread, Option.bind_some]
    split
    · exact ⟨_, rfl⟩
    · exact ⟨_, rfl⟩

theorem csvColumns_of_read {u : Unicode} {raw : String} {parsed : List (ℕ × Record)}
    (h : readInventoryCsv u raw = .ok parsed) : ∃ columns, csvColumns u raw = some columns := by
  rw [readInventoryCsv] at h
  rw [csvColumns]
  cases hlines : fileLines raw with
  | nil => exact ⟨[], rfl⟩
  | cons headerLine lines =>
    rw [hlines] at h
    dsimp only at h ⊢
    cases hrecords : readRecords (delimiter headerLine) none (headerLine :: lines) with
    | none =>
      rw [hrecords] at h
      simp at h
    | some records =>
      obtain ⟨records', hfirst⟩ := readRecords_singleton hrecords
      rw [hfirst]
      exact ⟨_, rfl⟩

end SentinelNet.Inventory
