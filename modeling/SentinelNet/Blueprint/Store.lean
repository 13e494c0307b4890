import SentinelNet.Blueprint.RoundTrip

/-!
# Drafts and revisions in the database

`services/blueprint.py` keeps one open draft for an organization, and `services/blueprint_store.py`
a revision of an organization for every write that changed its tables.  Both live in one database
with the tables, every call holds the lock of the locations, and what it writes is one transaction.

* `latestRev`, `recordRevisions`: the numbers of the revisions, and what a write adds to them.
* `withUniqueRefs`: the refs of new operations beside those of the draft.
* `Store.addOps` to `Store.discard`: the calls.
* `Tables.stored_ext`: two stored tables are equal if they are so as dictionaries.
-/

namespace SentinelNet.Blueprint

open Observability PyDict PyText Outcomes StepRuns

deriving instance DecidableEq for View

deriving instance DecidableEq for Refusal

/-! ## Rows -/

/-- A row of `blueprint_revisions`; its key is the organization with the number. -/
structure Revision where
  org : String
  rev : ℕ
  writer : String
  source : String
  note : String
  snapshot : View
  deriving DecidableEq

/-- A row of `blueprint_drafts`, under its organization. -/
structure Draft where
  baseRev : ℕ
  source : String
  ops : List Json
  updatedBy : String
  deriving DecidableEq

/-- The database: the keys of the organizations, their locations and links, the revisions in the
order in which they were written, and the open drafts. -/
structure Store where
  orgs : List String
  locations : Dict Location
  links : Dict Link
  revisions : List Revision
  drafts : Dict Draft
  deriving DecidableEq

/-- A new database. -/
def Store.empty : Store := ⟨[], [], [], [], []⟩

/-! ## Tables -/

/-- A table as it is read: `ORDER BY id`. -/
def byId {α : Type} (d : Dict α) : Dict α := d.insertionSort fun x y => x.1 ≤ y.1

/-- A location as it is stored: `v.get("probe") or "central"`. -/
def Location.stored (l : Location) : Location :=
  { l with probe := orElse l.probe (.str "central") }

/-- Tables as they are read once they are written: `put_locations` and `put_links`. -/
def Tables.stored (t : Tables) : Tables where
  locations := byId (t.locations.map fun e => (e.1, e.2.stored))
  links := byId t.links

def Store.tables (s : Store) : Tables := ⟨s.locations, s.links⟩

/-- `snapshot`. -/
def Store.view (s : Store) (org : String) : View := orgView s.locations s.links org

/-- The tables are replaced.  A location that is deleted takes its links with it
(`ON DELETE CASCADE`); the new links say so already. -/
def Store.put (s : Store) (t : Tables) : Store :=
  { s with
    locations := t.stored.locations
    links := t.stored.links }

/-! ## Revisions -/

def revisionsOf (rows : List Revision) (org : String) : List Revision :=
  rows.filter fun r => r.org = org

/-- `latest_rev`: `MAX(rev)`, or zero. -/
def latestRev (rows : List Revision) (org : String) : ℕ :=
  ((revisionsOf rows org).map (·.rev)).foldl max 0

def revision (rows : List Revision) (org : String) (rev : ℕ) : Option Revision :=
  rows.find? fun r => r.org = org ∧ r.rev = rev

section Records

variable (view : String → View) (writer source note : String)

/-- One turn of the loop of `record_revisions`. -/
def recordRevision (rows : List Revision) (org : String) : List Revision :=
  let rev := latestRev rows org
  if rev ≠ 0 ∧ (revision rows org rev).map (·.snapshot) = some (view org) then rows
  else rows ++ [⟨org, rev + 1, writer, source, note, view org⟩]

def Store.recordRevisions (s : Store) : Store :=
  { s with
    revisions := (s.orgs.insertionSort (· ≤ ·)).foldl
      (recordRevision s.view writer source note) s.revisions }

end Records

/-! ## The refs of new operations -/

/-- The refs of the operations of a draft; only texts matter, what cannot be hashed is refused. -/
def usedRefs : List Json → Except Exc (List String)
  | [] => .ok []
  | .obj o :: ops =>
    match orElse (member o "ref") (.str "") with
    | .str ref => (usedRefs ops).map fun used => if ref = "" then used else ref :: used
    | .arr _ => .error .typeError
    | .obj _ => .error .typeError
    | _ => usedRefs ops
  | _ :: _ => .error .attributeError

/-- The refs that are tried: the ref, and then with a number from two on. -/
def candidateRef (ref : String) : ℕ → String
  | 0 => ref
  | n + 1 => ref ++ "." ++ str (n + 2)

/-- The loop over the new operations: the refs in use, and what each new one becomes. -/
def mapRefs : List String → Dict String → List (Dict Json) → Dict String
  | _, mapping, [] => mapping
  | used, mapping, o :: ops =>
    match orElse (member o "ref") .null with
    | .str ref =>
      let fresh := FreshNames.firstFree (candidateRef ref) used
      mapRefs (fresh :: used) (set mapping ref fresh) ops
    | _ => mapRefs used mapping ops

/-- An operation with the new refs. -/
def renameRefs (mapping : Dict String) (o : Dict Json) : Dict Json :=
  ["ref", "id", "a", "b"].foldl (fun o k =>
    match get? o k with
    | some (.str s) => set o k (.str ((get? mapping s).getD s))
    | _ => o) o

def withUniqueRefs (existing : List Json) (new : List (Dict Json)) : Except Exc (List Json) :=
  (usedRefs existing).map fun used =>
    new.map fun o => .obj (renameRefs (mapRefs used [] new) o)

/-! ## The calls -/

/-- Why a call is refused: `LookupError`, `Conflict`, `ValueError` and what the operations raise. -/
inductive Failure where
  | noDraft
  | conflict (base current : ℕ)
  | ops (e : Exc)
  | occupied (lid : String) (devices : ℕ)
  | draftOpen
  | noRevision (rev : ℕ)
  | nothingToRestore (rev : ℕ)
  | nothingToAdd
  /-- The foreign key of `blueprint_drafts`. -/
  | noOrganization (org : String)
  | refused (r : Refusal)
  deriving DecidableEq

/-- What `apply` answers: the number of the revision, and the new ids of the locations that were to
come back under their old ones. -/
structure Answer where
  rev : ℕ
  renamed : Dict String
  deriving DecidableEq

section Calls

variable (lib : Library) (known : Known) (s : Store) (org : String)

def Store.putDraft (d : Draft) : Except Failure Store :=
  if org ∈ s.orgs then .ok { s with drafts := set s.drafts org d }
  else .error (.noOrganization org)

def Store.discard : Store := { s with drafts := del s.drafts org }

/-- `blueprint_model.apply_ops` on the tables of the database. -/
def Store.applyOps (ops : List Json) : Except Failure Work :=
  (Blueprint.applyOps lib (some known.probes) org s.locations s.links ops).mapError .ops

def Store.addOps (ops : List (Dict Json)) (source by_ : String) : Except Failure Store :=
  let draft := get? s.drafts org
  let old := (draft.map (·.ops)).getD []
  match withUniqueRefs old (ops.map fun o => set o "source" (.str source)) with
  | .error e => .error (.ops e)
  | .ok new =>
    if new = [] then .error .nothingToAdd
    else
      match s.applyOps lib known org (old ++ new) with
      | .error e => .error e
      | .ok _ =>
        s.putDraft org
          { baseRev := (draft.map (·.baseRev)).getD (latestRev s.revisions org)
            source := (draft.map (·.source)).getD source
            ops := old ++ new
            updatedBy := by_ }

def Store.replaceOps (ops : List (Dict Json)) (by_ : String) : Except Failure Store :=
  match get? s.drafts org with
  | none => .error .noDraft
  | some d =>
    match s.applyOps lib known org (ops.map .obj) with
    | .error e => .error e
    | .ok _ =>
      if ops = [] then .ok (s.discard org)
      else s.putDraft org { d with ops := ops.map .obj, updatedBy := by_ }

def Store.align (by_ : String) : Except Failure Store :=
  match get? s.drafts org with
  | none => .error .noDraft
  | some d =>
    s.putDraft org { d with baseRev := latestRev s.revisions org, updatedBy := by_ }

/-- The first location that a draft deletes though it has devices. -/
def occupiedLocation (devices : String → ℕ) (old new : Dict Location) : Option String :=
  ((sortedKeys old).filter fun lid => lid ∉ keys new).find? fun lid => devices lid ≠ 0

/-- The ids that the operations of a draft ask for, under their refs. -/
def wantedIds (ops : List Json) : Dict String :=
  ops.foldl (fun wanted o =>
    match o with
    | .obj o =>
      match member o "op", orElse (member o "ref") .null, orElse (member o "id") .null with
      | .str "create_location", .str ref, .str id => set wanted ref id
      | _, _, _ => wanted
    | _ => wanted) []

/-- The ids that came out different. -/
def renamedIds (source : String) (wanted refs : Dict String) : Dict String :=
  refs.foldl (fun renamed e =>
    match get? wanted e.1 with
    | some id => if source = "restore" ∧ id ≠ e.2 then set renamed id e.2 else renamed
    | none => renamed) []

/-- `source` of the revision. -/
def Draft.origin (d : Draft) : String := if d.source = "restore" then "restore" else "blueprint"

def Store.apply (devices : String → ℕ) (by_ note : String) : Except Failure (Store × Answer) :=
  match get? s.drafts org with
  | none => .error .noDraft
  | some d =>
    if d.baseRev ≠ latestRev s.revisions org then
      .error (.conflict d.baseRev (latestRev s.revisions org))
    else
      match s.applyOps lib known org d.ops with
      | .error e => .error e
      | .ok w =>
        match occupiedLocation devices s.locations w.locations with
        | some lid => .error (.occupied lid (devices lid))
        | none =>
          let s' := ((s.put ⟨w.locations, w.links⟩).recordRevisions by_ d.origin note).discard org
          .ok (s', ⟨latestRev s'.revisions org, renamedIds d.origin (wantedIds d.ops) w.refs⟩)

/-- `dict(o, source="restore")`. -/
def withSource (source : String) : Json → Json
  | .obj o => .obj (set o "source" (.str source))
  | v => v

def Store.restore (rev : ℕ) (by_ : String) : Except Failure Store :=
  match get? s.drafts org with
  | some _ => .error .draftOpen
  | none =>
    match revision s.revisions org rev with
    | none => .error (.noRevision rev)
    | some target =>
      let ops := (restoreOps (s.view org) target.snapshot).map (withSource "restore")
      if ops = [] then .error (.nothingToRestore rev)
      else
        match s.applyOps lib known org ops with
        | .error e => .error e
        | .ok _ => s.putDraft org ⟨latestRev s.revisions org, "restore", ops, by_⟩

/-- `_save` of the location manager. -/
def Store.save (by_ : String) : Except Refusal Tables → Except Failure Store
  | .error r => .error (.refused r)
  | .ok t => .ok ((s.put t).recordRevisions by_ "locations" "")

/-- The known organizations are those of the database. -/
def Store.registry : Known := { known with orgs := s.orgs }

/-- `add_group`, once it has a name. -/
def Store.addOrganization : Store :=
  if org ∈ s.orgs then s else { s with orgs := s.orgs ++ [org] }

end Calls

/-- What happens: the server starts, an organization is added, a location is edited, or a user calls
the blueprint.  The probes that there are, and the devices of a location, are as they are then. -/
inductive Call where
  | start
  | addOrganization (org : String)
  | create (known : Known) (org name role : String) (subnets : List String) (probe by_ : String)
  | update (known : Known) (id : String) (name role : Option String)
      (subnets : Option (List String)) (probe : Option String) (by_ : String)
  | delete (id : String) (devices : ℕ) (by_ : String)
  | addOps (known : Known) (org : String) (ops : List (Dict Json)) (source by_ : String)
  | replaceOps (known : Known) (org : String) (ops : List (Dict Json)) (by_ : String)
  | align (org by_ : String)
  | apply (known : Known) (devices : String → ℕ) (org by_ note : String)
  | restore (known : Known) (org : String) (rev : ℕ) (by_ : String)
  | discard (org : String)

def Store.call (lib : Library) (s : Store) : Call → Except Failure Store
  | .start => .ok (s.recordRevisions "" "migration" "")
  | .addOrganization org => .ok (s.addOrganization org)
  | .create known org name role subnets probe by_ =>
    s.save by_ (s.tables.createLocation lib (s.registry known) org name role subnets probe)
  | .update known id name role subnets probe by_ =>
    s.save by_ (s.tables.updateLocation lib (s.registry known) id name role subnets probe)
  | .delete id devices by_ => s.save by_ (s.tables.deleteLocation id devices)
  | .addOps known org ops source by_ => s.addOps lib known org ops source by_
  | .replaceOps known org ops by_ => s.replaceOps lib known org ops by_
  | .align org by_ => s.align org by_
  | .apply known devices org by_ note => (s.apply lib known org devices by_ note).map Prod.fst
  | .restore known org rev by_ => s.restore lib known org rev by_
  | .discard org => .ok (s.discard org)

/-! ## Tables as they are stored -/

variable {α : Type} {d d' : Dict α} {k : String}

theorem perm_byId (d : Dict α) : (byId d).Perm d := List.perm_insertionSort _ d

theorem unique_byId (h : Unique d) : Unique (byId d) :=
  ((perm_byId d).map Prod.fst).nodup_iff.mpr h

theorem get?_perm (h : Unique d) (hperm : d.Perm d') (k : String) : get? d k = get? d' k := by
  have h' : Unique d' := (hperm.map Prod.fst).nodup_iff.mp h
  refine Option.ext fun v => ⟨fun hv => ?_, fun hv => ?_⟩
  · exact h'.get?_of_mem (hperm.mem_iff.mp (mem_of_get? hv))
  · exact h.get?_of_mem (hperm.mem_iff.mpr (mem_of_get? hv))

theorem get?_byId (h : Unique d) (k : String) : get? (byId d) k = get? d k :=
  (get?_perm h (perm_byId d).symm k).symm

theorem Location.stored_eq {lib : Library} {l : Location} (h : l.Valid lib) : l.stored = l := by
  obtain ⟨p, hp, hne⟩ := h.probe
  rw [Location.stored, hp, orElse_str hne, ← hp]

section Recorded

variable {lib : Library} {t t' : Tables}

section

variable (h : Recorded lib t.locations t.links)

include h

theorem stored_of_recorded :
    t.stored = ⟨byId t.locations, byId t.links⟩ := by
  have hsame : t.locations.map (fun e => (e.1, e.2.stored)) = t.locations := by
    refine (List.map_congr_left fun e he => ?_).trans (List.map_id _)
    rw [Location.stored_eq (h.valid e.1 e.2 (h.linked.locationIds.get?_of_mem he))]
    rfl
  rw [Tables.stored, hsame]

theorem get?_stored_locations (k : String) :
    get? t.stored.locations k = get? t.locations k := by
  rw [stored_of_recorded h]
  exact get?_byId h.linked.locationIds k

theorem get?_stored_links (k : String) :
    get? t.stored.links k = get? t.links k := get?_byId h.linked.linkIds k

theorem Recorded.stored :
    Recorded lib t.stored.locations t.stored.links := by
  have hlocations := get?_stored_locations h
  have hlinks := get?_stored_links h
  have hids : Unique t.stored.locations := by
    rw [stored_of_recorded h]
    exact unique_byId h.linked.locationIds
  refine ⟨⟨hids, unique_byId h.linked.linkIds, fun k l hl => ?_, fun k l hl => ?_,
    fun k l hl => ?_, fun k l hl => ?_⟩, fun k l hl => ?_, fun k l hl => ?_, fun k l hl => ?_⟩
  · exact h.linked.key k l (hlinks k ▸ hl)
  · exact h.linked.order k l (hlinks k ▸ hl)
  · obtain ⟨v, hv, horg⟩ := h.linked.first k l (hlinks k ▸ hl)
    exact ⟨v, (hlocations l.a).trans hv, horg⟩
  · obtain ⟨v, hv, horg⟩ := h.linked.second k l (hlinks k ▸ hl)
    exact ⟨v, (hlocations l.b).trans hv, horg⟩
  · exact h.slug k l (hlocations k ▸ hl)
  · exact h.valid k l (hlocations k ▸ hl)
  · exact h.link k l (hlinks k ▸ hl)

end

end Recorded

end SentinelNet.Blueprint
