import SentinelNet.Probes.AgentRequests

/-!
# Versions that were read

`update_version_inventory` keeps one record for an address.  It reads all records before it writes
one of them, with their versions cleaned and models filled in, and writes back what it has read.

* `reading_update`, `reading_update_of_ne`: what is read after a write.
* `updates`, `reading_updates`, `reading_updates_of_ne`: some writes, and what is read after them.
-/

namespace SentinelNet.Triage

open Observability PyDict
open Probes (Surroundings detectedVersions updateVersionInventory)

/-- What a driver reads of a device; an empty text is none. -/
structure Firmware where
  version : String
  model : String := ""
  serial : String := ""

def Firmware.hasModel (read : Firmware) : Bool :=
  read.model ≠ "" && read.model ≠ "Non Rilevato"

/-- What is read of a device in the record of its address. -/
structure Reading where
  version : Option Json
  model : Option Json
  serial : Option Json
  status : Option Json

section Records

variable (env : Surroundings)

/-- `_clean_version`, of what a record has as its version. -/
def cleanField : Option Json → Option Json
  | some (.str v) => some (.str (if v = "" then v else env.cleanVersion v))
  | v => v

/-- What a record has as its model, with a default. -/
def modelField (model : Option Json) : Option Json :=
  if (model.getD .null).truthy then model else some (.str "Non Rilevato")

/-- A record as `get_detected_versions` reads it. -/
def cleanEntry (info : Dict Json) : Dict Json :=
  let info :=
    match get? info "version" with
    | some (.str v) => if v = "" then info else set info "version" (.str (env.cleanVersion v))
    | _ => info
  if ((get? info "model").getD .null).truthy then info
  else set info "model" (.str "Non Rilevato")

/-- The four columns of a record. -/
def readingOf (entry : Dict Json) : Reading :=
  ⟨get? entry "version", get? entry "model", get? entry "serial", get? entry "status"⟩

/-- A reading of `get_detected_versions`. -/
def reading (versions : Dict (Dict Json)) (ip : String) : Reading :=
  readingOf ((get? (detectedVersions env versions) ip).getD [])

def Reading.write (r : Reading) (read : Firmware) (status : String) : Reading where
  version := cleanField env (some (.str read.version))
  model := if read.hasModel then some (.str read.model) else r.model.or (some (.str "Non Rilevato"))
  serial := if read.serial = "" then r.serial else some (.str read.serial)
  status := some (.str status)

variable (versions : Dict (Dict Json)) {ip ip' vendor stamp status : String} {read : Firmware}

theorem get?_detectedVersions (ip : String) :
    get? (detectedVersions env versions) ip = (get? versions ip).map (cleanEntry env) := by
  induction versions with
  | nil => rfl
  | cons p versions ih =>
    have hcons : detectedVersions env (p :: versions) =
        (p.1, cleanEntry env p.2) :: detectedVersions env versions := rfl
    rw [hcons, get?_cons, ih]
    obtain ⟨k, entry⟩ := p
    rw [get?_cons]
    split
    · rfl
    · rfl

theorem readingOf_cleanEntry (entry : Dict Json) : readingOf (cleanEntry env entry) =
    { readingOf entry with
      version := cleanField env (get? entry "version")
      model := modelField (get? entry "model") } := by
  have hkeep : ∀ (info : Dict Json) (key : String), key ≠ "version" → get?
      (match get? info "version" with
        | some (.str v) => if v = "" then info else set info "version" (.str (env.cleanVersion v))
        | _ => info) key = get? info key := by
    intro info key hkey
    split
    · split
      · rfl
      · rw [get?_set, if_neg hkey]
    · rfl
  have hversion : get?
      (match get? entry "version" with
        | some (.str v) => if v = "" then entry else set entry "version" (.str (env.cleanVersion v))
        | _ => entry) "version" = cleanField env (get? entry "version") := by
    split
    · next v hv =>
      rw [hv, cleanField]
      split
      · exact hv
      · rw [get?_set, if_pos rfl]
    · next hother =>
      unfold cleanField
      split
      · next v hv => exact absurd hv (hother v)
      · rfl
  have hmodel := hkeep entry "model" (by decide)
  unfold readingOf cleanEntry modelField
  dsimp only
  rw [hmodel]
  split
  · rw [hversion, hmodel, hkeep entry "serial" (by decide), hkeep entry "status" (by decide)]
  · rw [get?_set, if_neg (by decide), hversion, get?_set, if_pos rfl, get?_set,
      if_neg (by decide), hkeep entry "serial" (by decide), get?_set, if_neg (by decide),
      hkeep entry "status" (by decide)]

theorem modelField_modelField (model : Option Json) :
    modelField (modelField model) = modelField model := by
  by_cases h : (model.getD .null).truthy = true
  · have hsame : modelField model = model := if_pos h
    rw [hsame, hsame]
  · have hdefault : modelField model = some (.str "Non Rilevato") := if_neg h
    rw [hdefault]
    rfl

theorem modelField_reading (ip : String) (h : (reading env versions ip).model ≠ none) :
    modelField (reading env versions ip).model = (reading env versions ip).model := by
  unfold reading at h ⊢
  rw [get?_detectedVersions] at h ⊢
  cases hentry : get? versions ip with
  | none =>
    rw [hentry] at h
    exact absurd rfl h
  | some entry =>
    rw [Option.map_some, Option.getD_some, readingOf_cleanEntry, modelField_modelField]

/-- What is read of another address after a write: its version was cleaned once more. -/
theorem reading_update_of_ne (hne : ip' ≠ ip) :
    reading env (updateVersionInventory env versions stamp ip vendor (.str read.version) status
      read.model read.serial) ip' =
      { reading env versions ip' with
        version := cleanField env (reading env versions ip').version } := by
  unfold reading updateVersionInventory
  dsimp only
  rw [get?_detectedVersions, get?_set, if_neg hne, get?_detectedVersions]
  cases get? versions ip' with
  | none => rfl
  | some entry =>
    rw [Option.map_some, Option.map_some, Option.getD_some, Option.getD_some, readingOf_cleanEntry,
      readingOf_cleanEntry]
    have hversion := congrArg Reading.version (readingOf_cleanEntry env entry)
    have hmodel := congrArg Reading.model (readingOf_cleanEntry env entry)
    unfold readingOf at hversion hmodel
    dsimp only at hversion hmodel
    rw [hversion, hmodel, modelField_modelField]

/-- What is read of the address after a write. -/
theorem reading_update : reading env (updateVersionInventory env versions stamp ip vendor
    (.str read.version) status read.model read.serial) ip =
      (reading env versions ip).write env read status := by
  have hmodel := modelField_reading env versions ip
  unfold reading at hmodel ⊢
  unfold updateVersionInventory
  dsimp only
  rw [get?_detectedVersions, get?_set, if_pos rfl, Option.map_some, Option.getD_some,
    readingOf_cleanEntry]
  generalize (get? (detectedVersions env versions) ip).getD [] = entry at hmodel ⊢
  -- the columns are followed through the three parts of the write
  generalize hassigned : assign entry [("vendor", Json.str vendor), ("version", .str read.version),
    ("status", .str status), ("seen_at", .str stamp)] = assigned
  have hversion : get? assigned "version" = some (.str read.version) := by
    rw [← hassigned]
    exact get?_assign (by simp) (by simp) entry
  have hstatus : get? assigned "status" = some (.str status) := by
    rw [← hassigned]
    exact get?_assign (by simp) (by simp) entry
  have hother : ∀ key ∈ ["model", "serial"], get? assigned key = get? entry key := by
    intro key hkey
    rw [← hassigned]
    refine get?_assign_of_not_mem ?_ entry
    rcases List.mem_cons.mp hkey with rfl | hkey
    · simp
    · rw [List.mem_singleton.mp hkey]
      simp
  generalize hnamed : (if (decide (read.model ≠ "") && decide (read.model ≠ "Non Rilevato")) = true
    then set assigned "model" (.str read.model)
    else if has assigned "model" = true then assigned
    else set assigned "model" (.str "Non Rilevato")) = named
  have hkeep : ∀ key, key ≠ "model" → get? named key = get? assigned key := by
    intro key hkey
    rw [← hnamed]
    split_ifs
    · rw [get?_set, if_neg hkey]
    · rfl
    · rw [get?_set, if_neg hkey]
  have hwritten : get? named "model" = if read.hasModel then some (.str read.model)
      else (readingOf entry).model.or (some (.str "Non Rilevato")) := by
    rw [← hnamed]
    by_cases hread : read.hasModel = true
    · rw [if_pos hread]
      unfold Firmware.hasModel at hread
      rw [if_pos hread, get?_set, if_pos rfl]
    · rw [if_neg hread]
      unfold Firmware.hasModel at hread
      rw [if_neg hread]
      have hmodel := hother "model" List.mem_cons_self
      unfold readingOf has
      dsimp only
      rw [← hmodel]
      cases hthere : get? assigned "model" with
      | none =>
        rw [Option.isSome_none, if_neg Bool.false_ne_true, get?_set, if_pos rfl, Option.none_or]
      | some m =>
        rw [Option.isSome_some, if_pos rfl, Option.some_or]
        exact hthere
  have hwrittenRead : modelField (get? named "model") = if read.hasModel then some (.str read.model)
      else (readingOf entry).model.or (some (.str "Non Rilevato")) := by
    rw [hwritten]
    by_cases hread : read.hasModel = true
    · rw [if_pos hread]
      unfold Firmware.hasModel at hread
      exact if_pos (Bool.and_eq_true_iff.mp hread).1
    · rw [if_neg hread]
      cases hthere : (readingOf entry).model with
      | none => rfl
      | some m =>
        rw [hthere] at hmodel
        exact hmodel (Option.some_ne_none m)
  unfold readingOf Reading.write
  dsimp only
  have hserial := hother "serial" (List.mem_cons_of_mem _ (List.mem_singleton_self _))
  by_cases hempty : read.serial = ""
  · rw [if_pos hempty, if_pos hempty, hkeep _ (by decide), hversion, hwrittenRead,
      hkeep _ (by decide), hserial, hkeep _ (by decide), hstatus]
    rfl
  · have hcolumn : ∀ key, key ≠ "serial" →
        get? (set named "serial" (.str read.serial)) key = get? named key := fun key hkey => by
      rw [get?_set, if_neg hkey]
    rw [if_neg hempty, if_neg hempty, hcolumn _ (by decide), hkeep _ (by decide), hversion,
      hcolumn _ (by decide), hwrittenRead, get?_set, if_pos rfl, hcolumn _ (by decide),
      hkeep _ (by decide), hstatus]
    rfl

/-! ## Some writes -/

variable {env}

/-- Writes to the record of an address, each with its status. -/
def updates (env : Surroundings) (stamp ip vendor : String) (versions : Dict (Dict Json))
    (writes : List (Firmware × String)) : Dict (Dict Json) :=
  writes.foldl (fun versions w => updateVersionInventory env versions stamp ip vendor
    (.str w.1.version) w.2 w.1.model w.1.serial) versions

/-- What is read of another address after some writes: its version was cleaned as often. -/
theorem reading_updates_of_ne (hne : ip' ≠ ip) (writes : List (Firmware × String)) :
    reading env (updates env stamp ip vendor versions writes) ip' =
      { reading env versions ip' with
        version := (cleanField env)^[writes.length] (reading env versions ip').version } := by
  induction writes generalizing versions with
  | nil => rfl
  | cons w writes ih =>
    unfold updates at ih ⊢
    rw [List.foldl_cons, ih, reading_update_of_ne env versions hne, List.length_cons,
      Function.iterate_succ_apply]

/-- What is read of the address after some writes. -/
theorem reading_updates (writes : List (Firmware × String)) :
    reading env (updates env stamp ip vendor versions writes) ip =
      writes.foldl (fun r w => r.write env w.1 w.2) (reading env versions ip) := by
  induction writes generalizing versions with
  | nil => rfl
  | cons w writes ih =>
    unfold updates at ih ⊢
    rw [List.foldl_cons, ih, reading_update, List.foldl_cons]

end Records

end SentinelNet.Triage
