import SentinelNet.Inventory.CsvFile
import SentinelNet.Inventory.Decommission

/-!
# The import of a file

`classify` of `services/csv_import.py` says of every row of a file what an import would do with it;
`apply` does it.

* `classifyRow`, `classify`: the rows of a file, one after the other.
* `entry`, `apply`: the rows that are written, and the inventory afterwards.
-/

namespace SentinelNet.Inventory

open Observability PyText

/-! ## The inventory and the request -/

/-- A network of a location; no IPv4 address is in one of IPv6. -/
inductive Subnet where
  | v4 (net : Ipv4.Network)
  | v6 (text : String)

/-- An address is in one of some networks. -/
def within (a : Ipv4.Addr) (subnets : List Subnet) : Bool :=
  subnets.any fun
    | .v4 net => net.has a
    | .v6 _ => false

/-- A location, as far as the import reads it. -/
structure Place extends Location where
  name : String
  subnets : List Subnet

/-- The organizations with their names, the locations, the probes and the devices; the locations
have probes, and the devices have those columns that reading fills in. -/
structure World where
  codec : Codec
  unicode : Unicode
  groups : List (String × Option String)
  places : List Place
  probes : List String
  stock : Stock
  ids : (places.map fun l => l.id).Nodup
  named : ∀ l ∈ places, l.id ≠ "" ∧ l.probe ≠ ""
  filled : ∀ d ∈ stock.active.rows, d.probe ≠ "" ∧ d.sshPort ≠ ""

def World.getLocation (w : World) (id : String) : Option Location :=
  (w.places.find? fun l => l.id = id).map Place.toLocation

/-- What the user decided about a row. -/
structure Decision where
  skip : Bool
  location : Option String

/-- The arguments of `classify`. -/
structure Request where
  csvText : String
  defaultOrg : Option String
  defaultLocation : Option String
  decisions : List (String × Decision)
  scope : Option (List String)

/-- The decision about a row. -/
def Request.decision (q : Request) (line : ℕ) : Decision :=
  ((q.decisions.find? fun d => d.1 = str line).map Prod.snd).getD ⟨false, none⟩

/-- The user may see an organization. -/
def Request.allows (q : Request) (org : String) : Bool := q.scope.all fun scope => org ∈ scope

/-! ## Rows -/

inductive RowStatus where
  | new
  | update
  | error
  | skipped
  deriving DecidableEq

/-- What the user may do about a row that is refused. -/
inductive Advice where
  | skip
  | move (location : String)
  deriving DecidableEq

/-- The fields that are compared, `_COMPARED`. -/
inductive Field where
  | hostname
  | vendor
  | username
  | password
  | enableSecret
  | probe
  | location
  deriving DecidableEq

def comparedFields : List Field :=
  [.hostname, .vendor, .username, .password, .enableSecret, .probe, .location]

def Field.isSecret : Field → Bool
  | .password => true
  | .enableSecret => true
  | _ => false

/-- A field that is changed, with what it was and what it will be. -/
structure Change where
  field : Field
  before : String
  after : String
  deriving DecidableEq

structure ImportRow where
  row : ℕ
  ip : String
  hostname : String
  vendor : String
  org : Option String
  location : Option String
  probe : Option String
  status : RowStatus
  changes : List Change
  reason : String
  warnings : List String
  action : Option Advice
  record : Record
  profile : Option String

def ImportRow.fail (r : ImportRow) (reason : String) (action : Option Advice) : ImportRow :=
  { r with status := .error, reason := reason, action := action }

def ImportRow.isWritten (r : ImportRow) : Bool := r.status = .new ∨ r.status = .update

def normalizeVendor (rawVendor : String) : String :=
  let v := strip (lowerText rawVendor)
  ((vendorAliases.find? fun a => a.1 = v).map Prod.snd).getD v

/-- A row of which nothing is known but its cells. -/
def baseRow (line : ℕ) (rec : Record) : ImportRow where
  row := line
  ip := rec.cell .ip
  hostname := rec.cell .hostname
  vendor := normalizeVendor (orElse (rec.cell .vendor) "cisco")
  org := none
  location := none
  probe := none
  status := .new
  changes := []
  reason := ""
  warnings := []
  action := none
  record := rec
  profile := none

/-! ## Where a row goes -/

def World.resolveGroup (w : World) (value : String) : Option String :=
  if strip value ∈ w.groups.map Prod.fst then some (strip value)
  else (w.groups.find? fun g => g.2 = some (strip value)).map Prod.fst

def World.findLocation (w : World) (org value : String) : Option Place :=
  if value = "" then none
  else
    match w.places.find? fun l => l.id = value ∧ l.org = org with
    | some l => some l
    | none => w.places.find? fun l =>
        l.org = org ∧ w.unicode.casefold l.name = w.unicode.casefold value

/-- The location that a row names: the one the user decided on, that of its cell, or the default
one of the default organization. -/
def Request.locationValue (q : Request) (line : ℕ) (rec : Record) (org : String) : String :=
  orElse ((q.decision line).location.getD "")
    (orElse (rec.cell .location)
      (if some org = q.defaultOrg then q.defaultLocation.getD "" else ""))

section Classification

variable (w : World) (q : Request)

/-- The organization and the location of a row, or the row that is refused or skipped. -/
def destination (line : ℕ) (rec : Record) : Except ImportRow (String × Place) :=
  let r := baseRow line rec
  if (q.decision line).skip then .error { r with status := .skipped }
  else if !validIp r.ip then .error (r.fail "IP mancante o non valido" none)
  else
    let rawOrg := orElse (rec.cell .group) (q.defaultOrg.getD "")
    if rawOrg = "" then
      .error (r.fail "Organizzazione mancante: scegli una destinazione o aggiungi la colonna" none)
    else
      match w.resolveGroup rawOrg with
      | none =>
        .error (r.fail ("Organizzazione '" ++ rawOrg ++
          "' inesistente: crea prima l'organizzazione") none)
      | some org =>
        if !q.allows org then
          .error (r.fail ("Organizzazione '" ++ org ++ "' non consentita per il tuo profilo") none)
        else
          match w.findLocation org (q.locationValue line rec org) with
          | none =>
            .error ({ r with org := some org }.fail ("Sede '" ++ q.locationValue line rec org ++
              "' inesistente o non appartenente a '" ++ org ++ "'") none)
          | some place =>
            if rec.cell .probe ≠ "" ∧ rec.cell .probe ∉ w.probes then
              .error ({ r with org := some org, location := some place.id }.fail
                ("Sonda '" ++ rec.cell .probe ++ "' inesistente") none)
            else .ok (org, place)

/-- Where an address lies: in the subnets of its location, in none, or in those of another one. -/
inductive Siting where
  | inside
  | outside
  | elsewhere (other : Place)

/-- The check of the subnets; `ip_address` may raise. -/
def siting (line : ℕ) (ip org : String) (place : Place) : Except String Siting :=
  if place.subnets.isEmpty then .ok .inside
  else
    match Ipv4.ofChars ip.toList with
    | none => .error ("'" ++ ip ++ "' does not appear to be an IPv4 or IPv6 address")
    | some a =>
      if within a place.subnets || (q.decision line).location.isSome then .ok .inside
      else
        match w.places.find? fun l => l.org = org ∧ l.id ≠ place.id ∧ within a l.subnets with
        | none => .ok .outside
        | some other => .ok (.elsewhere other)

/-- What a row says about a field. -/
def incoming (rec : Record) (place : Place) : Field → String
  | .hostname => rec.cell .hostname
  | .vendor => if rec.cell .vendor = "" then "" else normalizeVendor (rec.cell .vendor)
  | .username => rec.cell .username
  | .password => rec.cell .password
  | .enableSecret => rec.cell .enableSecret
  | .probe => rec.cell .probe
  | .location => place.id

def Host.field (d : Host) : Field → String
  | .hostname => d.hostname
  | .vendor => d.vendor
  | .username => d.username
  | .password => d.password
  | .enableSecret => d.enableSecret
  | .probe => d.probe
  | .location => d.location

/-- The change of a field: an empty cell changes nothing, and a secret is not shown. -/
def changeOf (rec : Record) (place : Place) (d : Host) (f : Field) : Option Change :=
  if incoming rec place f = "" then none
  else if f.isSecret then some ⟨f, "", "changed"⟩
  else if incoming rec place f ≠ d.field f then some ⟨f, d.field f, incoming rec place f⟩
  else none

/-- A row that is written: a new device, or one that is there. -/
def accepted (r : ImportRow) (rec : Record) (org : String) (place : Place) : ImportRow :=
  match findPair w.stock.active.rows (org, r.ip) with
  | none => r
  | some d =>
    { r with
      status := .update
      profile := some d.profile
      changes := comparedFields.filterMap (changeOf rec place d)
      vendor := if rec.cell .vendor = "" then d.vendor else r.vendor
      probe := some (orElse (rec.cell .probe) (orElse d.probe place.probe)) }

/-- A row whose place is known, unless it comes twice. -/
def settled (r : ImportRow) (rec : Record) (org : String) (place : Place) : Siting → ImportRow
  | .elsewhere other =>
    r.fail ("Fuori dalle subnet di " ++ place.name ++ ": rientra in " ++ other.name)
      (some (.move other.id))
  | .inside => retire r
  | .outside => retire { r with warnings := r.warnings ++ ["fuori dalle subnet della sede"] }
where
  /-- The check of the decommissioned devices. -/
  retire (r : ImportRow) : ImportRow :=
    if (org, r.ip) ∈ w.stock.retired.pairs then
      r.fail "Apparato dismesso: riattivalo o eliminalo prima" none
    else accepted w r rec org place

def placedRow (line : ℕ) (rec : Record) (org : String) (place : Place) : ImportRow :=
  { baseRow line rec with
    org := some org
    location := some place.id
    probe := some (orElse (rec.cell .probe) place.probe) }

/-- A row, after those with some keys. -/
def classifyRow (seen : List Pair) (line : ℕ) (rec : Record) :
    Except String (ImportRow × List Pair) :=
  match destination w q line rec with
  | .error r => .ok (r, seen)
  | .ok (org, place) =>
    let r := placedRow line rec org place
    if (org, r.ip) ∈ seen then
      .ok (r.fail "IP già presente in una riga precedente del file" (some .skip), seen)
    else
      (siting w q line r.ip org place).map fun s =>
        (settled w r rec org place s, (org, r.ip) :: seen)

def classifyRows : List Pair → List (ℕ × Record) → Except String (List ImportRow)
  | _, [] => .ok []
  | seen, (line, rec) :: rows =>
    match classifyRow w q seen line rec with
    | .error e => .error e
    | .ok (r, seen') => (classifyRows seen' rows).map (r :: ·)

end Classification

/-! ## The preview and the import -/

/-- Why an import is broken off. -/
inductive ImportError where
  | file (e : FileError)
  | row (message : String)
  | write (message : String)

structure Preview where
  columns : List (String × Option Column)
  rows : List ImportRow

def Preview.count (p : Preview) (status : RowStatus) : ℕ := p.rows.countP fun r => r.status = status

def classify (w : World) (q : Request) : Except ImportError Preview :=
  match readInventoryCsv w.unicode q.csvText with
  | .error e => .error (.file e)
  | .ok parsed =>
    match classifyRows w q [] parsed with
    | .error e => .error (.row e)
    | .ok rows =>
      match csvColumns w.unicode q.csvText with
      | none => .error (.file .fieldLimit)
      | some columns => .ok ⟨columns, rows⟩

def ImportRow.entry (r : ImportRow) : Entry where
  ip := r.ip
  vendor := r.vendor
  profile := r.profile.getD "custom"
  username := r.record.cell .username
  password := r.record.cell .password
  enableSecret := r.record.cell .enableSecret
  group := r.org.getD ""
  probe := if r.record.cell .probe = "" then none else some (r.record.cell .probe)
  location := r.location
  hostname := if r.hostname = "" then none else some r.hostname

/-- `upsert_devices`, with the inventory afterwards. -/
def World.upsert (w : World) (entries : List Entry) : Except String Table :=
  match upsertRows w.codec w.getLocation w.stock.active.rows entries with
  | .error e => .error e
  | .ok rows => w.stock.active.writeDevices w.getLocation w.stock.retired.pairs [] rows

/-- What the import answers, with the inventory afterwards. -/
structure Imported where
  imported : List String
  updated : List String
  skipped : List ℕ
  failed : List (ℕ × String × String)
  preview : Preview
  active : Table

def Preview.having (p : Preview) (status : RowStatus) : List ImportRow :=
  p.rows.filter fun r => r.status = status

def apply (w : World) (q : Request) : Except ImportError Imported :=
  match classify w q with
  | .error e => .error e
  | .ok p =>
    let entries := (p.rows.filter ImportRow.isWritten).map ImportRow.entry
    match if entries.isEmpty then .ok w.stock.active else w.upsert entries with
    | .error e => .error (.write e)
    | .ok active =>
      .ok {
        imported := (p.having .new).map fun r => r.ip
        updated := (p.having .update).map fun r => r.ip
        skipped := (p.having .skipped).map fun r => r.row
        failed := (p.having .error).map fun r => (r.row, orElse r.ip "?", r.reason)
        preview := p
        active := active }

end SentinelNet.Inventory
