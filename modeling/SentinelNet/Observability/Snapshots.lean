import SentinelNet.Observability.Events
import SentinelNet.Lib.Text

/-!
# Device snapshots

`_from_api_observations` of `observability/normalize.py` projects the snapshots of devices.  A
snapshot is flattened into paths `a.b.c`, paths that count something are left out, and what is left
is compared with the previous snapshot of the device.  In a snapshot of interfaces the path says
which interface a field is of.

* `flatten`, `stableFields`: the paths of a snapshot.
* `interfaceOf`, `interfacesOf`: the interface of a path, and the fields of each.
-/

namespace SentinelNet.Observability

open PyDict PyText

/-! ## Values -/

/-- What a number is worth; a boolean is one. -/
def Json.number? : Json → Option ℚ
  | .bool b => some (if b then 1 else 0)
  | .int n => some n
  | .float q => some q
  | _ => none

/-- `isinstance(v, (int, float))`. -/
def Json.isNumber (v : Json) : Bool := v.number?.isSome

def Json.pyEq (v w : Json) : Bool :=
  match v.number?, w.number? with
  | some q, some r => q = r
  | none, none =>
    match v, w with
    | .null, .null => true
    | .str s, .str t => s = t
    | _, _ => false
  | _, _ => false

/-- Neither an array nor an object. -/
def Json.isScalar : Json → Bool
  | .arr _ => false
  | .obj _ => false
  | _ => true

/-! ## Paths -/

def childPath (path k : String) : String := if path = "" then k else path ++ "." ++ k

def itemPath (path : String) (i : ℕ) : String := path ++ "[" ++ str i ++ "]"

mutual

def flatten (v : Json) (path : String) (out : Dict Json) (depth : ℕ) : Dict Json :=
  if 4 < depth ∨ 400 < out.length then out
  else
    match v with
    | .obj kvs => flattenMembers kvs path out (depth + 1)
    | .arr vs => flattenItems vs 0 path out (depth + 1)
    | .null => set out path .null
    | .bool b => set out path (.bool b)
    | .int n => set out path (.int n)
    | .float q => set out path (.float q)
    | .str s => set out path (.str s)
termination_by structural v

def flattenMembers (kvs : List (String × Json)) (path : String) (out : Dict Json) (depth : ℕ) :
    Dict Json :=
  match kvs with
  | [] => out
  | kv :: kvs => flattenMembers kvs path (flattenMember kv path out depth) depth
termination_by structural kvs

def flattenMember (kv : String × Json) (path : String) (out : Dict Json) (depth : ℕ) : Dict Json :=
  match kv with
  | (k, v) => flatten v (childPath path k) out depth
termination_by structural kv

/-- The first 50 items of an array. -/
def flattenItems (vs : List Json) (i : ℕ) (path : String) (out : Dict Json) (depth : ℕ) :
    Dict Json :=
  match vs with
  | [] => out
  | v :: vs =>
    if i < 50 then flattenItems vs (i + 1) path (flatten v (itemPath path i) out depth) depth
    else out
termination_by structural vs

end

def volatileHints : List String :=
  ["byte", "octet", "packet", "uptime", "time", "count", "session", "error", "drop", "discard",
    "collision", "rate", "usage", "seconds", "timestamp", "last_", "current_"]

/-- The lower case of a character, as far as it has letters of ASCII. -/
def lowerChar (c : Char) : List Char :=
  if c = '\u212a' then ['k'] else if c = '\u0130' then ['i', '\u0307'] else [c.toLower]

/-- `any(h in k.lower() for h in _VOLATILE_HINTS)`. -/
def isVolatile (k : String) : Bool :=
  volatileHints.any fun h => contains (String.ofList (k.toList.flatMap lowerChar)) h

/-- What a snapshot flattens to: nothing where `json.loads` does not read it. -/
def flatFields : Option Json → Dict Json
  | none => []
  | some data => flatten data "" [] 0

def stableFields (payload : Option Json) : Dict Json :=
  (flatFields payload).filter fun p => !startsWith p.1 "metrics." && !isVolatile p.1

/-! ## Interfaces -/

def ifaceKinds : List String := ["interfaces", "interface", "snmp_interfaces"]

def segments (field : String) : List String := (field.toList.splitOn '.').map String.ofList

def interfaceOf (field kind : String) : Option String :=
  if kind ∈ ifaceKinds then
    match segments field with
    | first :: name :: _ :: _ =>
      if first = "results" ∧ startsWith name "[" = false then some name else none
    | _ => none
  else none

/-- `field.split(".", 2)[2]`. -/
def restOf (field : String) : String := join "." ((segments field).drop 2)

/-- A name that is not empty. -/
def nonempty : Option String → Option String
  | some s => if s = "" then none else some s
  | none => none

/-- `grouped.setdefault(iface, {})[rest] = value`. -/
def putField (grouped : Dict (Dict Json)) (iface rest : String) (v : Json) : Dict (Dict Json) :=
  set grouped iface (set ((get? grouped iface).getD []) rest v)

/-- One turn of the loop of `_interfaces_of`. -/
def groupField (kind : String) (grouped : Dict (Dict Json)) (p : String × Json) :
    Dict (Dict Json) :=
  match nonempty (interfaceOf p.1 kind) with
  | some iface => putField grouped iface (restOf p.1) p.2
  | none => grouped

def interfacesOf (payload : Option Json) (kind : String) : Dict (Dict Json) :=
  if kind ∈ ifaceKinds then (stableFields payload).foldl (groupField kind) [] else []

def measured : Option Json → Dict Json
  | some (.obj kvs) =>
    match get? kvs "metrics" with
    | some (.obj metrics) => metrics.filter fun p => p.2.isNumber
    | _ => []
  | _ => []

/-! ## Events of a snapshot -/

/-- A row of `api_observations`; `summary` is what `json.loads` reads in its text. -/
structure ApiRow where
  id : ℕ
  ts : ℤ
  tenant : String
  deviceIp : String
  kind : String
  summary : Option Json

def sourceOf (kind : String) : String :=
  if startsWith kind "snmp_" then "snmp"
  else if startsWith kind "linux_" then "linux"
  else if startsWith kind "windows_" then "windows"
  else "fortigate_api"

/-- A polling round without an answer. -/
def ApiRow.silent (r : ApiRow) : Bool := r.kind = "snmp_silent"

def deviceEvent (now : ℤ) (r : ApiRow) : Event where
  ts := r.ts
  ingestedTs := now
  tenant := r.tenant
  source := sourceOf r.kind
  sourceId := some r.id
  eventType := if r.silent then "device.unreachable" else "device.state"
  entityType := "device"
  entityId := r.deviceIp
  deviceIp := some r.deviceIp
  attrs := [("kind", .str r.kind)]
  metrics := if r.silent ∨ r.kind ∈ ifaceKinds then [] else measured r.summary
  dedupKey := "api:" ++ str r.id

def maxChangesPerSnapshot : ℕ := 20

/-- The stable fields with another value than before, with both. -/
def changedFields (before after : Dict Json) : List (String × Json × Json) :=
  after.filterMap fun p =>
    match get? before p.1 with
    | some v => if v.pyEq p.2 then none else some (p.1, v, p.2)
    | none => none

def changeEvent (now : ℤ) (r : ApiRow) (field : String) (before after : Json) : Event where
  ts := r.ts
  ingestedTs := now
  tenant := r.tenant
  source := sourceOf r.kind
  sourceId := some r.id
  eventType :=
    if (nonempty (interfaceOf field r.kind)).isSome then "interface.change" else "device.change"
  entityType := if (nonempty (interfaceOf field r.kind)).isSome then "interface" else "device"
  entityId := match nonempty (interfaceOf field r.kind) with
    | some iface => r.deviceIp ++ ":" ++ iface
    | none => r.deviceIp
  deviceIp := some r.deviceIp
  interface := interfaceOf field r.kind
  severity := some 5
  attrs := [("kind", .str r.kind), ("field", .str field), ("before", before), ("after", after)]
  dedupKey := "api-change:" ++ str r.id ++ ":" ++ field

/-- The measures of an interface, without its name. -/
def ownMeasures (measures : Dict Json) (iface : String) : Dict Json :=
  (measures.filter fun p => startsWith p.1 (iface ++ ".")).map fun p =>
    (String.ofList (p.1.toList.drop (iface ++ ".").length), p.2)

def interfaceEvent (now : ℤ) (r : ApiRow) (iface : String) (fields : Dict Json) : Event where
  ts := r.ts
  ingestedTs := now
  tenant := r.tenant
  source := sourceOf r.kind
  sourceId := some r.id
  eventType := "interface.state"
  entityType := "interface"
  entityId := r.deviceIp ++ ":" ++ iface
  deviceIp := some r.deviceIp
  interface := some iface
  attrs := fields
  metrics := ownMeasures (measured r.summary) iface
  dedupKey := "api-iface:" ++ str r.id ++ ":" ++ iface

/-- The events for what has changed since the previous snapshot. -/
def changeEvents (now : ℤ) (prev : Option ApiRow) (r : ApiRow) : List Event :=
  match prev with
  | none => []
  | some prev =>
    ((changedFields (stableFields prev.summary) (stableFields r.summary)).take
      maxChangesPerSnapshot).map fun c => changeEvent now r c.1 c.2.1 c.2.2

/-- The events that `_from_api_observations` emits for a row, given the previous snapshot of the
device of the same kind. -/
def apiEvents (now : ℤ) (prev : Option ApiRow) (r : ApiRow) : List Event :=
  if r.silent then [deviceEvent now r]
  else
    deviceEvent now r :: changeEvents now prev r ++
      (interfacesOf r.summary r.kind).map fun p => interfaceEvent now r p.1 p.2

end SentinelNet.Observability
