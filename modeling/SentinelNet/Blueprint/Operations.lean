import SentinelNet.Blueprint.Tables
import SentinelNet.Lib.Ipv4Network

/-!
# Operations of a draft

A draft is a list of operations, which come from the browser, from a preset or from the assistant as
JSON values of any shape.  `apply_ops` applies them to copies of the tables, one after the other.
An exception of an operation becomes an `OpError` with its position; the exceptions that Python
raises here are modelled where they arise.

* `cleanFields`: the check of the fields of a location.
-/

namespace SentinelNet.Blueprint

open Observability PyDict PyText

/-! ## Python -/

/-- What is used of Python's library: the texts of numbers and of compound values, and `ipaddress`.
The text of a network is what `ip_network` makes of itself. -/
structure Library where
  /-- `str` of a value that is no text. -/
  repr : Json → String
  /-- `str(ip_network(raw, strict=False))`; `none` is `ValueError`. -/
  network : String → Option String
  /-- Whether `ip_address` accepts a text. -/
  address : String → Bool
  network_network : ∀ s t, network s = some t → network t = some t ∧ strip t = t ∧ t ≠ ""

/-- Python's library as far as addresses of the version 4 go. -/
def ipv4Library : Library where
  repr _ := "None"
  network s := (Ipv4.networkOfChars s.toList).map fun net => String.ofList net.format
  address s := (Ipv4.ofChars s.toList).isSome
  network_network s t h := by
    obtain ⟨net, hnet, rfl⟩ := Option.map_eq_some_iff.mp h
    have hne : net.format ≠ [] := by simp [Ipv4.Network.format]
    refine ⟨?_, strip_of_forall fun c hc => ?_, fun hempty => hne ?_⟩
    · rw [String.toList_ofList, Ipv4.networkOfChars_format hnet]
      rfl
    · rw [String.toList_ofList] at hc
      exact Ipv4.isSpace_of_mem_networkFormat hc
    · rw [← String.toList_ofList (l := net.format), hempty]
      rfl

/-- Why an operation is refused. -/
inductive Reason where
  | notAnObject
  | unknownField (k : String)
  | nameMissing
  | nameTooLong
  | badRole (v : Json)
  | badSubnet (raw : String)
  | noProbe (v : Json)
  | badGateway (v : String)
  | noLocation (x : Json)
  | badRef (v : Json)
  | badId (v : Json)
  | noFields
  | sameLocation
  | badKind (v : Json)
  | linkExists
  | noLink (v : Json)
  | unknownOp (v : Json)
  | tooManyOps
  /-- The message is that of a `TypeError` or an `AttributeError`. -/
  | malformed
  deriving DecidableEq

/-- The exceptions: `ValueError`, `TypeError`, `AttributeError`, `KeyError`, and `OpError`. -/
inductive Exc where
  | valueError (r : Reason)
  | typeError
  | attributeError
  | keyError
  | opError (index : ℕ) (r : Reason)
  deriving DecidableEq

/-- `bool(v)`. -/
def truthy : Json → Bool
  | .null => false
  | .bool b => b
  | .int n => n ≠ 0
  | .float q => q ≠ 0
  | .str s => s ≠ ""
  | .arr vs => !vs.isEmpty
  | .obj kvs => !kvs.isEmpty

def orElse (v w : Json) : Json := if truthy v then v else w

/-- `v[k]`. -/
def getItem {α : Type} (d : Dict α) (k : String) : Except Exc α :=
  match get? d k with
  | none => .error .keyError
  | some v => .ok v

def member (op : Dict Json) (k : String) : Json := (get? op k).getD .null

/-- The items that a loop over a value goes through. -/
def items : Json → Except Exc (List Json)
  | .arr vs => .ok vs
  | .str s => .ok (s.toList.map fun c => .str (String.singleton c))
  | .obj kvs => .ok (kvs.map fun e => .str e.1)
  | _ => .error .typeError

section Python

variable (lib : Library)

/-- `str(v)`. -/
def Library.text : Json → String
  | .str s => s
  | v => lib.repr v

def Library.stripped (v : Json) : String := strip (lib.text (orElse v (.str "")))

/-! ## Fields -/

/-- The loop of `_clean_subnets`. -/
def Library.networks : List Json → Except Exc (List String)
  | [] => .ok []
  | raw :: raws => do
    let raw := strip (lib.text raw)
    if raw = "" then networks raws
    else
      match lib.network raw with
      | none => .error (.valueError (.badSubnet raw))
      | some t =>
        let out ← networks raws
        pure (t :: out)

def sortedSet (l : List String) : List String := l.dedup.insertionSort (· ≤ ·)

def Library.cleanSubnets (v : Json) : Except Exc (List String) := do
  let raws ← items (orElse v (.arr []))
  let out ← lib.networks raws
  pure (sortedSet out)

/-- What `_clean_fields` returns: the fields that were given. -/
structure Fields where
  name : Option String := none
  role : Option String := none
  subnets : Option (List String) := none
  probe : Option Json := none
  gateway : Option String := none
  deriving DecidableEq

/-- `dict.update` with the fields that were given. -/
def Location.update (l : Location) (f : Fields) : Location where
  org := l.org
  name := f.name.getD l.name
  role := f.role.getD l.role
  subnets := f.subnets.getD l.subnets
  probe := f.probe.getD l.probe
  gateway := f.gateway.getD l.gateway

/-- The probes that there are; `none` checks nothing. -/
abbrev Probes := Option (List String)

def checkProbe (probes : Probes) (v : Json) : Except Exc Json :=
  match probes with
  | none => .ok v
  | some ids =>
    match v with
    | .str p => if p ∈ ids then .ok v else .error (.valueError (.noProbe v))
    | .arr _ => .error .typeError
    | .obj _ => .error .typeError
    | _ => .error (.valueError (.noProbe v))

def Library.cleanName (v : Json) : Except Exc String :=
  if lib.stripped v = "" then .error (.valueError .nameMissing)
  else if maxName < (lib.stripped v).length then .error (.valueError .nameTooLong)
  else .ok (lib.stripped v)

/-- `v not in ROLES`. -/
def checkRole : Json → Except Exc String
  | .str r => if r ∈ roles then .ok r else .error (.valueError (.badRole (.str r)))
  | v => .error (.valueError (.badRole v))

def Library.cleanGateway (v : Json) : Except Exc String :=
  if lib.stripped v = "" ∨ lib.address (lib.stripped v) = true then .ok (lib.stripped v)
  else .error (.valueError (.badGateway (lib.stripped v)))

/-- One turn of the loop of `_clean_fields`. -/
def Library.cleanField (probes : Probes) (out : Fields) (k : String) (v : Json) :
    Except Exc Fields :=
  match k with
  | "name" => do
    let name ← lib.cleanName v
    pure { out with name := some name }
  | "role" => do
    let role ← checkRole v
    pure { out with role := some role }
  | "subnets" => do
    let subnets ← lib.cleanSubnets v
    pure { out with subnets := some subnets }
  | "probe" => do
    let probe ← checkProbe probes v
    pure { out with probe := some probe }
  | "gateway" => do
    let gateway ← lib.cleanGateway v
    pure { out with gateway := some gateway }
  | _ => .error (.valueError (.unknownField k))

def Library.cleanFields (probes : Probes) : Fields → Dict Json → Except Exc Fields
  | out, [] => .ok out
  | out, (k, v) :: fields => do
    let out ← lib.cleanField probes out k v
    cleanFields probes out fields

/-! ## Operations -/

/-- The copies that a draft is applied to, with the ids of the locations that it created. -/
structure Work where
  locations : Dict Location
  links : Dict Link
  refs : Dict String
  deriving DecidableEq

variable (probes : Probes) (org : String)

def locId (w : Work) (i : ℕ) (x : Json) : Except Exc String :=
  match x with
  | .str s =>
    let lid := (get? w.refs s).getD s
    if has w.locations lid = false then .error (.opError i (.noLocation x))
    else do
      let l ← getItem w.locations lid
      if l.org ≠ org then .error (.opError i (.noLocation x)) else pure lid
  -- `refs` has no list and no dictionary for a key.
  | .arr _ => .error .typeError
  | .obj _ => .error .typeError
  | _ => .error (.opError i (.noLocation x))

/-- The check of `ref`: texts of numbers and of compound values do not start with a plus. -/
def checkRef (refs : Dict String) : Json → Except Exc (Option String)
  | .null => .ok none
  | .str s =>
    if startsWith s "+" = false ∨ has refs s = true then .error (.valueError (.badRef (.str s)))
    else .ok (some s)
  | v => .error (.valueError (.badRef v))

/-- The check of `id`: `_slugify` takes a text. -/
def checkId (v : Json) : Except Exc (Option String) :=
  if truthy v = false then .ok none
  else
    match v with
    | .str s => if s = Probes.slugify s then .ok (some s) else .error (.valueError (.badId v))
    | _ => .error .attributeError

def newId (wanted : Option String) (name : String) (taken : List String) : String :=
  match wanted with
  | some id => if id ∈ taken then freeId id taken else id
  | none => freeId (Probes.slugify name) taken

/-- A new location, and its id for the ref. -/
def Work.create (w : Work) (fields : Fields) (ref : Option String) (lid : String) : Work where
  locations := set w.locations lid (Location.update ⟨org, "", "", [], .null, ""⟩ fields)
  links := w.links
  refs :=
    match ref with
    | none => w.refs
    | some ref => set w.refs ref lid

def createLocation (w : Work) (op : Dict Json) : Except Exc Work := do
  let fields ← lib.cleanFields probes {} [("name", member op "name"),
    ("role", orElse (member op "role") (.str "branch")),
    ("subnets", orElse (member op "subnets") (.arr [])),
    ("probe", orElse (member op "probe") (.str "central")),
    ("gateway", orElse (member op "gateway") (.str ""))]
  let ref ← checkRef w.refs (member op "ref")
  let wanted ← checkId (member op "id")
  pure (w.create org fields ref (newId wanted (fields.name.getD "") (keys w.locations)))

/-- The fields that `update_location`, `set_gateway` and `add_subnet` write. -/
def newFields (kind : String) (w : Work) (lid : String) (op : Dict Json) :
    Except Exc (Dict Json) :=
  match kind with
  | "update_location" =>
    match member op "fields" with
    | .obj fields => if fields = [] then .error (.valueError .noFields) else .ok fields
    | _ => .error (.valueError .noFields)
  | "set_gateway" => .ok [("gateway", member op "ip")]
  | _ => do
    let l ← getItem w.locations lid
    pure [("subnets", .arr (l.subnets.map .str ++ [member op "subnet"]))]

/-- `update_location`, `set_gateway` and `add_subnet`. -/
def changeLocation (kind : String) (w : Work) (i : ℕ) (op : Dict Json) : Except Exc Work := do
  let lid ← locId org w i (member op "id")
  let fields ← newFields kind w lid op
  let l ← getItem w.locations lid
  let fields ← lib.cleanFields probes {} fields
  pure { w with locations := set w.locations lid (l.update fields) }

/-- A location and its links are deleted. -/
def Work.remove (w : Work) (lid : String) : Work :=
  { w with
    locations := del w.locations lid
    links := w.links.filter fun e => e.2.a ≠ lid ∧ e.2.b ≠ lid }

def deleteLocation (w : Work) (i : ℕ) (op : Dict Json) : Except Exc Work := do
  let lid ← locId org w i (member op "id")
  let _ ← getItem w.locations lid
  pure (w.remove lid)

/-- `op.get("kind") not in KINDS`. -/
def checkKind : Json → Except Exc String
  | .str k => if k ∈ kinds then .ok k else .error (.valueError (.badKind (.str k)))
  | v => .error (.valueError (.badKind v))

def newLink (a b kind note : String) : Link :=
  ⟨org, (ordered a b).1, (ordered a b).2, kind, String.ofList (note.toList.take maxNote)⟩

def addLink (w : Work) (i : ℕ) (op : Dict Json) : Except Exc Work := do
  let a ← locId org w i (member op "a")
  let b ← locId org w i (member op "b")
  if a = b then .error (.valueError .sameLocation)
  else do
    let kind ← checkKind (member op "kind")
    if has w.links (linkId a b kind) = true then .error (.valueError .linkExists)
    else
      let note := lib.text (orElse (member op "note") (.str ""))
      pure { w with links := set w.links (linkId a b kind) (newLink org a b kind note) }

def removeLink (w : Work) (op : Dict Json) : Except Exc Work :=
  match member op "id" with
  | .str k =>
    if has w.links k = false then .error (.valueError (.noLink (.str k)))
    else do
      let l ← getItem w.links k
      if l.org ≠ org then .error (.valueError (.noLink (.str k)))
      else pure { w with links := del w.links k }
  | .arr _ => .error .typeError
  | .obj _ => .error .typeError
  | v => .error (.valueError (.noLink v))

/-- One turn of the loop of `apply_ops`, inside of its `try`. -/
def applyOp (w : Work) (i : ℕ) : Json → Except Exc Work
  | .obj op =>
    match member op "op" with
    | .str "create_location" => createLocation lib probes org w op
    | .str "update_location" => changeLocation lib probes org "update_location" w i op
    | .str "set_gateway" => changeLocation lib probes org "set_gateway" w i op
    | .str "add_subnet" => changeLocation lib probes org "add_subnet" w i op
    | .str "delete_location" => deleteLocation org w i op
    | .str "add_link" => addLink lib org w i op
    | .str "remove_link" => removeLink org w op
    | kind => .error (.valueError (.unknownOp kind))
  | _ => .error (.valueError .notAnObject)

/-- The `except` clauses of `apply_ops`. -/
def asOpError (i : ℕ) : Exc → Exc
  | .opError j r => .opError j r
  | .valueError r => .opError i r
  | .typeError => .opError i .malformed
  | .attributeError => .opError i .malformed
  | .keyError => .keyError

/-- The loop of `apply_ops`, from position `i` on. -/
def applyFrom (i : ℕ) : Work → List Json → Except Exc Work
  | w, [] => .ok w
  | w, op :: ops =>
    match applyOp lib probes org w i op with
    | .error e => .error (asOpError i e)
    | .ok w => applyFrom (i + 1) w ops

/-- `apply_ops`: the new tables and the ids of the refs. -/
def applyOps (locations : Dict Location) (links : Dict Link) (ops : List Json) : Except Exc Work :=
  if maxDraftOps < ops.length then .error (.valueError .tooManyOps)
  else applyFrom lib probes org 0 ⟨locations, links, []⟩ ops

end Python

end SentinelNet.Blueprint
