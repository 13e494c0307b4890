import SentinelNet.Inventory.CsvImport

/-!
# What a row of the preview announces

A row of the preview that is written announces a device: a new one with the values of the row, or
one that is there, with the changes of the row.  What the import writes is not always that.

* `ImportRow.newHost`, `ImportRow.updatedHost`: the device that a row announces.
* `mergedRow_new`, `mergedRow_update_iff`: what is written of a device.
* `upsert_find`, `exists_upsert`: the inventory after a list of entries with different keys.
-/

namespace SentinelNet.Inventory

open Observability PyText KeyedRows

/-! ## Vendors -/

theorem toLower_cases (c : Char) :
    c.toLower = c ∨ 97 ≤ c.toLower.val.toNat ∧ c.toLower.val.toNat ≤ 122 := by
  rw [Char.toLower]
  split
  · next hu =>
    have hlo : 65 ≤ c.val.toNat := UInt32.le_iff_toNat_le.mp hu.1
    have hhi : c.val.toNat ≤ 90 := UInt32.le_iff_toNat_le.mp hu.2
    have hdist : ('a'.val - 'A'.val).toNat = 32 := rfl
    refine Or.inr ?_
    simp only [UInt32.toNat_add, hdist]
    omega
  · exact Or.inl rfl

theorem lowerChar_of_mem {c d : Char} (h : d ∈ lowerChar c) : lowerChar d = [d] := by
  rw [lowerChar] at h
  split at h
  · rw [List.mem_singleton.mp h]
    decide
  · next hkelvin =>
    split at h
    · rcases List.mem_cons.mp h with rfl | h
      · decide
      · rw [List.mem_singleton.mp h]
        decide
    · next hdotted =>
      obtain rfl := List.mem_singleton.mp h
      rcases toLower_cases c with hsame | ⟨hlo, hhi⟩
      · rw [hsame, lowerChar, if_neg hkelvin, if_neg hdotted, hsame]
      · have hne : ∀ e : Char, 122 < e.val.toNat → c.toLower ≠ e := by
          rintro e he rfl
          omega
        rw [lowerChar, if_neg (hne _ (by decide)), if_neg (hne _ (by decide))]
        refine congrArg (fun e => [e]) ?_
        rw [Char.toLower, dif_neg]
        rintro ⟨-, hup⟩
        have hup' : c.toLower.val.toNat ≤ 90 := UInt32.le_iff_toNat_le.mp hup
        omega

theorem isSpace_of_lowerChar {c : Char} (h : ∀ d ∈ lowerChar c, isSpace d = true) :
    isSpace c = true := by
  rw [lowerChar] at h
  split at h
  · exact absurd (h 'k' List.mem_cons_self) (by decide)
  · split at h
    · exact absurd (h 'i' List.mem_cons_self) (by decide)
    · have hspace := h _ List.mem_cons_self
      rcases toLower_cases c with hsame | ⟨hlo, hhi⟩
      · rwa [hsame] at hspace
      · have hlo' : 97 ≤ c.toLower.toNat := hlo
        have hhi' : c.toLower.toNat ≤ 122 := hhi
        have hne : c.toLower ≠ ' ' := by
          intro heq
          rw [heq] at hlo
          exact absurd hlo (by decide)
        simp only [isSpace, Bool.or_eq_true, Bool.and_eq_true, beq_iff_eq, decide_eq_true_eq, hne,
          false_or] at hspace
        omega

theorem mem_of_mem_stripChars {c : Char} {cs : List Char} (h : c ∈ stripChars cs) : c ∈ cs :=
  (List.dropWhile_suffix isSpace).subset ((List.rdropWhile_prefix isSpace _).subset h)

theorem lowerText_of_forall {s : String} (h : ∀ c ∈ s.toList, lowerChar c = [c]) :
    lowerText s = s := by
  have hflat : s.toList.flatMap lowerChar = s.toList.flatMap fun c => [c] :=
    List.flatMap_congr h
  rw [lowerText, hflat, List.flatMap_singleton', String.ofList_toList]

theorem lowerText_normalizeVendor (rawVendor : String) :
    lowerText (normalizeVendor rawVendor) = normalizeVendor rawVendor := by
  rw [normalizeVendor]
  cases hfound : vendorAliases.find? fun a => a.1 = strip (lowerText rawVendor) with
  | none =>
    refine lowerText_of_forall fun c hc => ?_
    have hmem : c ∈ (lowerText rawVendor).toList := by
      have hstripped : c ∈ stripChars (lowerText rawVendor).toList := by
        rwa [Option.map_none, Option.getD_none, strip, String.toList_ofList] at hc
      exact mem_of_mem_stripChars hstripped
    rw [lowerText, String.toList_ofList] at hmem
    obtain ⟨d, -, hd⟩ := List.mem_flatMap.mp hmem
    exact lowerChar_of_mem hd
  | some a =>
    have hall : ∀ a ∈ vendorAliases, lowerText a.2 = a.2 := by decide
    exact hall a (List.mem_of_find?_eq_some hfound)

theorem normalizeVendor_ne {rawVendor : String} (htrim : strip rawVendor = rawVendor)
    (hne : rawVendor ≠ "") : normalizeVendor rawVendor ≠ "" := by
  have hstrip : strip (lowerText rawVendor) ≠ "" := by
    intro hempty
    have hnil : stripChars (rawVendor.toList.flatMap lowerChar) = [] := by
      have hlist := congrArg String.toList hempty
      rwa [strip, lowerText, String.toList_ofList, String.toList_ofList] at hlist
    have hspaces : ∀ c ∈ rawVendor.toList, isSpace c = true := fun c hc =>
      isSpace_of_lowerChar fun d hd =>
        isSpace_of_stripChars_eq_nil hnil d (List.mem_flatMap.mpr ⟨c, hc, hd⟩)
    refine hne ?_
    rw [← htrim, strip, stripChars, List.dropWhile_eq_nil_iff.mpr hspaces]
    rfl
  rw [normalizeVendor]
  cases hfound : vendorAliases.find? fun a => a.1 = strip (lowerText rawVendor) with
  | none => exact hstrip
  | some a =>
    have hall : ∀ a ∈ vendorAliases, a.2 ≠ "" := by decide
    exact hall a (List.mem_of_find?_eq_some hfound)

/-! ## The device that a row announces -/

def ImportRow.pair (r : ImportRow) : Pair := (r.org.getD "", r.ip)

def ImportRow.listed (r : ImportRow) (f : Field) : Option Change :=
  r.changes.find? fun c => c.field = f

def ImportRow.after (r : ImportRow) (d : Host) (f : Field) : String :=
  ((r.listed f).map Change.after).getD (d.field f)

/-- A secret of a device after the changes of a row, which do not show it. -/
def ImportRow.secretAfter (env : Codec) (r : ImportRow) (d : Host) (f : Field) (c : Column) :
    String :=
  if (r.listed f).isSome then env.encrypt (r.record.cell c) else d.field f

def ImportRow.newHost (env : Codec) (r : ImportRow) : Host where
  ip := r.ip
  vendor := r.vendor
  profile := "custom"
  username := r.record.cell .username
  password := encryptPassword env (r.record.cell .password)
  enableSecret := encryptPassword env (r.record.cell .enableSecret)
  group := r.org.getD ""
  hostname := r.hostname
  probe := r.probe.getD ""
  location := r.location.getD ""
  sshPort := "22"
  transports := env.dumps [("ssh", .int 22)]
  snmpCommunity := ""
  snmpDisabled := ""

/-- A device with the changes of a row and no others. -/
def ImportRow.updatedHost (env : Codec) (r : ImportRow) (d : Host) : Host :=
  { d with
    hostname := r.after d .hostname
    vendor := r.after d .vendor
    username := r.after d .username
    password := r.secretAfter env d .password .password
    enableSecret := r.secretAfter env d .enableSecret .enableSecret
    probe := r.after d .probe
    location := r.after d .location }

/-- A device that is written again as it is. -/
def Host.again (d : Host) : Entry where
  ip := d.ip
  vendor := d.vendor
  profile := d.profile
  username := ""
  password := ""
  enableSecret := ""
  group := d.group

/-- Writing a device again leaves the columns that the preview does not compare, and the vendor
where the row has none. -/
structure Settled (env : Codec) (rec : Record) (d : Host) : Prop where
  transports : ∃ t, resolveTransports env (some d) d.again none = .ok t ∧
    env.dumps t = d.transports ∧ sshMirror env (some d) d.again t = d.sshPort
  vendor : rec.cell .vendor = "" → lowerText d.vendor = d.vendor

/-! ## What a row lists -/

theorem find?_filterMap_field {g : Field → Option Change}
    (hg : ∀ f c, g f = some c → c.field = f) {fs : List Field} {f : Field} (h : f ∈ fs) :
    (fs.filterMap g).find? (fun c => c.field = f) = g f := by
  have hnone : g f = none → ∀ fs : List Field,
      (fs.filterMap g).find? (fun c => c.field = f) = none := by
    intro hgf fs
    refine List.find?_eq_none.mpr fun c hc hfield => ?_
    obtain ⟨f', -, hf'⟩ := List.mem_filterMap.mp hc
    have hsame : f' = f := (hg f' c hf').symm.trans (of_decide_eq_true hfield)
    rw [hsame, hgf] at hf'
    simp at hf'
  cases hgf : g f with
  | none => exact hnone hgf fs
  | some c =>
    induction fs with
    | nil => cases h
    | cons f' fs ih =>
      by_cases hsame : f' = f
      · rw [hsame, List.filterMap_cons, hgf]
        exact List.find?_cons_of_pos (decide_eq_true (hg f c hgf))
      · have hrest := ih ((List.mem_cons.mp h).resolve_left (Ne.symm hsame))
        rw [List.filterMap_cons]
        cases hgf' : g f' with
        | none => exact hrest
        | some c' =>
          have hfield : c'.field ≠ f := by rw [hg f' c' hgf']; exact hsame
          dsimp only
          rw [List.find?_cons_of_neg (by simpa using hfield)]
          exact hrest

theorem field_of_changeOf {rec : Record} {place : Place} {d : Host} (f : Field) (c : Change)
    (h : changeOf rec place d f = some c) : c.field = f := by
  rw [changeOf] at h
  split at h
  · simp at h
  · split at h
    · rw [← Option.some.inj h]
    · split at h
      · rw [← Option.some.inj h]
      · simp at h

section Listed

variable {env : Codec} {r : ImportRow} {rec : Record} {place : Place} {d : Host}

section

variable (h : r.changes = comparedFields.filterMap (changeOf rec place d))

include h

theorem listed_eq (f : Field) :
    r.listed f = changeOf rec place d f := by
  have hmem : f ∈ comparedFields := by cases f <;> decide
  rw [ImportRow.listed, h, find?_filterMap_field field_of_changeOf hmem]

theorem after_eq {f : Field} (hf : f.isSecret = false) :
    r.after d f = orElse (incoming rec place f) (d.field f) := by
  rw [ImportRow.after, listed_eq h, changeOf, orElse]
  split
  · rfl
  · rw [if_neg (by simp [hf])]
    split
    · rfl
    · next hsame => exact (not_not.mp hsame).symm

theorem secretAfter_eq {f : Field} {c : Column} (hf : f.isSecret)
    (hc : incoming rec place f = rec.cell c) (hrec : r.record = rec) :
    r.secretAfter env d f c = mergedSecret env (some d) (rec.cell c) fun d => d.field f := by
  rw [ImportRow.secretAfter, listed_eq h, changeOf, mergedSecret, hc, hrec]
  by_cases hempty : rec.cell c = ""
  · rw [if_pos hempty, if_pos hempty]
    rfl
  · rw [if_neg hempty, if_neg hempty, if_pos hf]
    rfl

end

end Listed

/-! ## The row that is written -/

section Merged

variable {env : Codec} {getLocation : String → Option Location}

variable {devices : List Host}

theorem mergedRow_import {e : Entry} {id : String} {l : Location}
    (hip : validIp e.ip) (hport : e.sshPort = none) (htransports : e.transports = none)
    (hrequire : e.requireLocation) (hlocation : e.location = some id) (hid : id ≠ "")
    (hget : getLocation id = some l) (horg : l.org = e.group) :
    mergedRow env devices getLocation e =
      (resolveTransports env (findPair devices (e.group, e.ip)) e none).map
        (entryRow env (findPair devices (e.group, e.ip)) e id l.probe) := by
  have hcheck : checkEntry e = .ok none := by
    rw [checkEntry, hip, hport, htransports]
    rfl
  have hresolve : resolveLocation getLocation (findPair devices (e.group, e.ip)) e =
      .ok (id, l.probe) := by
    rw [resolveLocation, hlocation, hrequire, Option.getD_some, if_pos rfl, if_neg hid, hget]
    exact if_pos horg
  rw [mergedRow, hcheck]
  dsimp only
  rw [hresolve]

theorem mergedRow_congr {devices' : List Host} {e : Entry}
    (h : findPair devices (e.group, e.ip) = findPair devices' (e.group, e.ip)) :
    mergedRow env devices getLocation e = mergedRow env devices' getLocation e := by
  rw [mergedRow, mergedRow, h]

theorem pair_of_mergedRow {e : Entry} {row : Host}
    (h : mergedRow env devices getLocation e = .ok row) : row.pair = (e.group, e.ip) := by
  obtain ⟨location, locationProbe, transports, hrow⟩ := mergedRow_ok h
  rw [hrow]
  rfl

end Merged

theorem World.getLocation_of_mem (w : World) {place : Place} (h : place ∈ w.places) :
    w.getLocation place.id = some place.toLocation := by
  rw [World.getLocation, @find?_key_of_mem Place String _ (fun l => l.id) w.places w.ids place h]
  rfl

structure ImportRow.Places (r : ImportRow) (rec : Record) (org : String) (place : Place) : Prop where
  record : r.record = rec
  ip : r.ip = rec.cell .ip
  hostname : r.hostname = rec.cell .hostname
  org : r.org = some org
  location : r.location = some place.id

/-- A row of a new device. -/
structure ImportRow.Adds (r : ImportRow) (rec : Record) (org : String) (place : Place) : Prop
    extends r.Places rec org place where
  vendor : r.vendor = normalizeVendor (orElse (rec.cell .vendor) "cisco")
  probe : r.probe = some (orElse (rec.cell .probe) place.probe)
  profile : r.profile = none
  status : r.status = .new

/-- A row of a device that is there. -/
structure ImportRow.Updates (r : ImportRow) (rec : Record) (org : String) (place : Place)
    (d : Host) : Prop extends r.Places rec org place where
  vendor : r.vendor = if rec.cell .vendor = "" then d.vendor
    else normalizeVendor (rec.cell .vendor)
  changes : r.changes = comparedFields.filterMap (changeOf rec place d)
  profile : r.profile = some d.profile
  status : r.status = .update

section Written

variable {w : World} {r : ImportRow} {rec : Record} {org : String} {place : Place}

theorem ImportRow.Places.pair (h : r.Places rec org place) : r.pair = (org, rec.cell .ip) := by
  rw [ImportRow.pair, h.org, h.ip]
  rfl

theorem ImportRow.Places.key (h : r.Places rec org place) :
    (r.entry.group, r.entry.ip) = (org, rec.cell .ip) := h.pair

theorem mergedRow_entry (h : r.Places rec org place) (hip : validIp (rec.cell .ip))
    (hplace : place ∈ w.places) (horg : place.org = org) :
    mergedRow w.codec w.stock.active.rows w.getLocation r.entry =
      (resolveTransports w.codec (findPair w.stock.active.rows (org, rec.cell .ip)) r.entry
        none).map (entryRow w.codec (findPair w.stock.active.rows (org, rec.cell .ip)) r.entry
          place.id place.probe) := by
  have hip' : validIp r.entry.ip = true := by
    rw [show r.entry.ip = rec.cell .ip from h.ip]
    exact hip
  have hgroup : place.org = r.entry.group := by
    rw [horg, show r.entry.group = org from congrArg Prod.fst h.pair]
  rw [@mergedRow_import w.codec w.getLocation w.stock.active.rows r.entry place.id place.toLocation
    hip' rfl rfl rfl h.location (w.named place hplace).1 (w.getLocation_of_mem hplace) hgroup, h.key]

theorem orElse_empty (v : String) : orElse v "" = v := by
  rw [orElse]
  split
  · next h => exact h.symm
  · rfl

theorem orElse_of_ne {v : String} (h : v ≠ "") (v' : String) : orElse v v' = v := if_neg h

theorem getD_given (v : String) : (if v = "" then none else some v).getD "" = v := by
  split
  · next h => exact h.symm
  · rfl

theorem location_of_mergedRow (h : r.Places rec org place) (hip : validIp (rec.cell .ip))
    (hplace : place ∈ w.places) (horg : place.org = org) {row : Host}
    (hrow : mergedRow w.codec w.stock.active.rows w.getLocation r.entry = .ok row) :
    row.location = place.id := by
  rw [mergedRow_entry h hip hplace horg] at hrow
  cases ht : resolveTransports w.codec (findPair w.stock.active.rows (org, rec.cell .ip)) r.entry
      none with
  | error err =>
    rw [ht] at hrow
    exact absurd hrow (by simp [Except.map])
  | ok t =>
    rw [ht] at hrow
    rw [← Except.ok.inj hrow]
    rfl

/-- A new device is written as the row announces it. -/
theorem mergedRow_new (h : r.Adds rec org place) (hip : validIp (rec.cell .ip))
    (hplace : place ∈ w.places) (horg : place.org = org)
    (hnew : findPair w.stock.active.rows (org, rec.cell .ip) = none) :
    mergedRow w.codec w.stock.active.rows w.getLocation r.entry = .ok (r.newHost w.codec) := by
  have hport : int "22" = some 22 := by decide
  have hmirror : intStr 22 = "22" := by decide
  have htransports : resolveTransports w.codec none r.entry none = .ok [("ssh", .int 22)] := by
    show resolveTransports.sshOnly none r.entry = _
    rw [resolveTransports.sshOnly, show resolvedPort none r.entry = "22" from rfl, hport]
  rw [mergedRow_entry h.toPlaces hip hplace horg, hnew, htransports]
  refine congrArg Except.ok (Host.mk.injEq .. ▸ ?_)
  refine ⟨rfl, ?_, ?_, ?_, rfl, rfl, rfl, ?_, ?_, ?_, ?_, rfl, rfl, rfl⟩
  · rw [show r.entry.vendor = r.vendor from rfl, h.vendor, lowerText_normalizeVendor]
  · rw [show r.entry.profile = r.profile.getD "custom" from rfl, h.profile]
    rfl
  · exact orElse_empty _
  · exact (orElse_empty _).trans (getD_given r.hostname)
  · show orElse (orElse ((if r.record.cell .probe = "" then none
      else some (r.record.cell .probe)).getD "") "") (orElse place.probe "central") = r.probe.getD ""
    rw [getD_given, orElse_empty, orElse_of_ne (w.named place hplace).2, h.probe, h.record]
    rfl
  · rw [h.location]
    rfl
  · exact hmirror

theorem after_vendor {d : Host} (h : r.Updates rec org place d) : r.after d .vendor = r.vendor := by
  rw [after_eq h.changes rfl, h.vendor, incoming, Host.field]
  by_cases hempty : rec.cell .vendor = ""
  · rw [if_pos hempty, if_pos hempty, orElse, if_pos rfl]
  · rw [if_neg hempty, if_neg hempty]
    exact orElse_of_ne (normalizeVendor_ne (rec.trimmed .vendor) hempty) _

/-- What is written of a row for a device that is there: the announced device, with its vendor in
lower case and its transports written again. -/
theorem entryRow_update {d : Host} (h : r.Updates rec org place d) (hplace : place ∈ w.places)
    (hd : d ∈ w.stock.active.rows) (hpair : d.pair = (org, rec.cell .ip))
    (t : PyDict.Dict Json) :
    entryRow w.codec (some d) r.entry place.id place.probe t =
      { r.updatedHost w.codec d with
        vendor := lowerText (r.updatedHost w.codec d).vendor
        sshPort := sshMirror w.codec (some d) d.again t
        transports := w.codec.dumps t } := by
  obtain ⟨hgroup, hip⟩ := Prod.mk.inj hpair
  refine Host.mk.injEq .. ▸ ?_
  refine ⟨?_, ?_, ?_, ?_, ?_, ?_, ?_, ?_, ?_, ?_, rfl, rfl, rfl, rfl⟩
  · exact h.ip.trans hip.symm
  · exact congrArg lowerText (after_vendor h).symm
  · show r.profile.getD "custom" = d.profile
    rw [h.profile, Option.getD_some]
  · show orElse (r.record.cell .username) d.username = r.after d .username
    rw [after_eq h.changes rfl, h.record]
    rfl
  · show mergedSecret w.codec (some d) (r.record.cell .password) Host.password =
      r.secretAfter w.codec d .password .password
    rw [secretAfter_eq h.changes rfl rfl h.record, h.record]
    rfl
  · show mergedSecret w.codec (some d) (r.record.cell .enableSecret) Host.enableSecret =
      r.secretAfter w.codec d .enableSecret .enableSecret
    rw [secretAfter_eq h.changes rfl rfl h.record, h.record]
    rfl
  · show r.org.getD "" = d.group
    rw [h.org, Option.getD_some, hgroup]
  · show orElse ((if r.hostname = "" then none else some r.hostname).getD "") d.hostname =
      r.after d .hostname
    rw [after_eq h.changes rfl, getD_given, h.hostname]
    rfl
  · show orElse (orElse ((if r.record.cell .probe = "" then none
      else some (r.record.cell .probe)).getD "") d.probe) (orElse place.probe "central") =
        r.after d .probe
    rw [after_eq h.changes rfl, getD_given, h.record]
    refine orElse_of_ne ?_ _
    rw [orElse]
    split
    · exact (w.filled d hd).1
    · next hne => exact hne
  · rw [show (r.updatedHost w.codec d).location = r.after d .location from rfl,
      after_eq h.changes rfl]
    exact (orElse_of_ne (w.named place hplace).1 _).symm

/-- A device that is there is written as the row announces it exactly if it is settled. -/
theorem mergedRow_update_iff {d : Host} (h : r.Updates rec org place d)
    (hip : validIp (rec.cell .ip)) (hplace : place ∈ w.places) (horg : place.org = org)
    (hfound : findPair w.stock.active.rows (org, rec.cell .ip) = some d) :
    mergedRow w.codec w.stock.active.rows w.getLocation r.entry = .ok (r.updatedHost w.codec d) ↔
      Settled w.codec rec d := by
  obtain ⟨hd, hpair⟩ := findPair_some hfound
  have hrow := entryRow_update h hplace hd hpair
  rw [mergedRow_entry h.toPlaces hip hplace horg, hfound,
    show resolveTransports w.codec (some d) r.entry none =
      resolveTransports w.codec (some d) d.again none from rfl]
  cases ht : resolveTransports w.codec (some d) d.again none with
  | error err =>
    constructor
    · exact fun heq => absurd heq (by simp [Except.map])
    · rintro ⟨⟨t, hok, -⟩, -⟩
      rw [ht] at hok
      simp at hok
  | ok t =>
    rw [Except.map, hrow, Except.ok.injEq]
    constructor
    · intro heq
      refine ⟨⟨t, ht, congrArg Host.transports heq, congrArg Host.sshPort heq⟩, fun hempty => ?_⟩
      have hlow : lowerText (r.after d .vendor) = r.after d .vendor := congrArg Host.vendor heq
      rwa [after_vendor h, h.vendor, if_pos hempty] at hlow
    · rintro ⟨⟨t', hok, hdumps, hmirror⟩, hlow⟩
      obtain rfl : t = t' := Except.ok.inj (ht.symm.trans hok)
      have hvend : lowerText (r.after d .vendor) = r.after d .vendor := by
        rw [after_vendor h, h.vendor]
        by_cases hempty : rec.cell .vendor = ""
        · rw [if_pos hempty, hlow hempty]
        · rw [if_neg hempty, lowerText_normalizeVendor]
      refine Host.mk.injEq .. ▸ ?_
      exact ⟨rfl, hvend, rfl, rfl, rfl, rfl, rfl, rfl, rfl, rfl, hmirror, hdumps, rfl, rfl⟩

end Written

/-! ## The inventory afterwards -/

section Upsert

variable {env : Codec} {getLocation : String → Option Location}

variable {rows : List Host}

theorem findPair_none {p : Pair} (h : p ∉ pairs rows) : findPair rows p = none := by
  refine List.find?_eq_none.mpr fun d hd hpair => h ?_
  exact mem_pairs.mpr ⟨d, hd, of_decide_eq_true hpair⟩

theorem findPair_congr {rows' : List Host} (hrows : (rows.map Host.pair).Nodup)
    (hsame : ∀ d, d ∈ rows' ↔ d ∈ rows) (hrows' : (rows'.map Host.pair).Nodup) (p : Pair) :
    findPair rows' p = findPair rows p := by
  cases hfound : findPair rows p with
  | some d =>
    obtain ⟨hd, hpair⟩ := findPair_some hfound
    rw [← hpair]
    exact findPair_of_mem hrows' ((hsame d).mpr hd)
  | none =>
    refine findPair_none fun hin => ?_
    obtain ⟨d, hd, rfl⟩ := mem_pairs.mp hin
    rw [findPair_of_mem hrows ((hsame d).mp hd)] at hfound
    simp at hfound

theorem findPair_replaced (devices : List Host) (row : Host) (p : Pair) :
    findPair (devices.filter (·.pair ≠ row.pair) ++ [row]) p =
      if row.pair = p then some row else findPair devices p := by
  rw [findPair, List.find?_append, List.find?_filter]
  by_cases hp : row.pair = p
  · have hnone : (devices.find? fun d => (decide (d.pair ≠ row.pair)) ∧ (decide (d.pair = p))) =
        none := by
      refine List.find?_eq_none.mpr fun d _ hd => ?_
      simp [hp] at hd
    rw [hnone, if_pos hp, Option.none_or]
    exact List.find?_cons_of_pos (decide_eq_true hp)
  · have hsame : (fun d : Host => decide (decide (d.pair ≠ row.pair) = true ∧
        decide (d.pair = p) = true)) = fun d => decide (d.pair = p) := by
      funext d
      by_cases hd : d.pair = p
      · simp [hd, Ne.symm hp]
      · simp [hd]
    rw [hsame, if_neg hp, List.find?_cons_of_neg (by simpa using hp), List.find?_nil, Option.or_none,
      findPair]

def Entry.pair (e : Entry) : Pair := (e.group, e.ip)

/-- After entries with different keys every one has written its row, and the other devices are as
before. -/
theorem upsertRows_find {devices : List Host} {entries : List Entry}
    (h : upsertRows env getLocation devices entries = .ok rows)
    (hkeys : (entries.map Entry.pair).Nodup) :
    (∀ e ∈ entries, ∃ row, mergedRow env devices getLocation e = .ok row ∧
      findPair rows e.pair = some row) ∧
    ∀ p, p ∉ entries.map Entry.pair → findPair rows p = findPair devices p := by
  induction entries generalizing devices with
  | nil =>
    obtain rfl := Except.ok.inj h
    exact ⟨fun e he => absurd he List.not_mem_nil, fun p _ => rfl⟩
  | cons e entries ih =>
    rw [List.map_cons, List.nodup_cons] at hkeys
    rw [upsertRows] at h
    split at h
    · simp at h
    · next row hrow =>
      have hpair : row.pair = e.pair := pair_of_mergedRow hrow
      obtain ⟨hwritten, hother⟩ := ih h hkeys.2
      refine ⟨fun e' he' => ?_, fun p hp => ?_⟩
      · rcases List.mem_cons.mp he' with rfl | he'
        · refine ⟨row, hrow, ?_⟩
          rw [hother _ hkeys.1, findPair_replaced, if_pos hpair]
        · obtain ⟨row', hrow', hfound⟩ := hwritten e' he'
          refine ⟨row', ?_, hfound⟩
          have hne : row.pair ≠ e'.pair := by
            rw [hpair]
            exact fun heq => hkeys.1 (heq ▸ List.mem_map_of_mem he')
          rw [← hrow']
          refine (mergedRow_congr ?_).symm
          exact (findPair_replaced devices row e'.pair).trans (if_neg hne)
      · rw [List.map_cons, List.mem_cons, not_or] at hp
        rw [hother p hp.2, findPair_replaced, if_neg]
        rw [hpair]
        exact Ne.symm hp.1

theorem exists_upsertRows {devices : List Host} {entries : List Entry}
    (h : ∀ e ∈ entries, ∃ row, mergedRow env devices getLocation e = .ok row)
    (hkeys : (entries.map Entry.pair).Nodup) :
    ∃ rows, upsertRows env getLocation devices entries = .ok rows := by
  induction entries generalizing devices with
  | nil => exact ⟨devices, rfl⟩
  | cons e entries ih =>
    rw [List.map_cons, List.nodup_cons] at hkeys
    obtain ⟨row, hrow⟩ := h e List.mem_cons_self
    have hpair : row.pair = e.pair := pair_of_mergedRow hrow
    rw [upsertRows, hrow]
    refine ih (fun e' he' => ?_) hkeys.2
    obtain ⟨row', hrow'⟩ := h e' (List.mem_cons_of_mem _ he')
    have hne : row.pair ≠ e'.pair := by
      rw [hpair]
      exact fun heq => hkeys.1 (heq ▸ List.mem_map_of_mem he')
    refine ⟨row', (mergedRow_congr ?_).trans hrow'⟩
    exact (findPair_replaced devices row e'.pair).trans (if_neg hne)

variable {w : World} {entries : List Entry}

/-- After an import every entry has written its row, and the other devices are as before. -/
theorem upsert_find {active : Table} (h : w.upsert entries = .ok active)
    (hkeys : (entries.map Entry.pair).Nodup) :
    (∀ e ∈ entries, ∃ row, mergedRow w.codec w.stock.active.rows w.getLocation e = .ok row ∧
      findPair active.rows e.pair = some row) ∧
    ∀ p, p ∉ entries.map Entry.pair →
      findPair active.rows p = findPair w.stock.active.rows p := by
  rw [World.upsert] at h
  split at h
  · simp at h
  · next rows hrows =>
    obtain ⟨hnodup, -⟩ := upsertRows_ok hrows w.stock.active.keys
    have hsame := findPair_congr hnodup (writeDevices_ok h).1 active.keys
    obtain ⟨hwritten, hother⟩ := upsertRows_find hrows hkeys
    refine ⟨fun e he => ?_, fun p hp => (hsame p).trans (hother p hp)⟩
    obtain ⟨row, hrow, hfound⟩ := hwritten e he
    exact ⟨row, hrow, (hsame e.pair).trans hfound⟩

/-- An import is written where every entry is accepted, its location is there, and its device is not
decommissioned. -/
theorem exists_upsert
    (h : ∀ e ∈ entries, ∃ row, mergedRow w.codec w.stock.active.rows w.getLocation e = .ok row ∧
      placed w.getLocation row = true)
    (hfree : ∀ e ∈ entries, e.pair ∉ w.stock.retired.pairs)
    (hkeys : (entries.map Entry.pair).Nodup) : ∃ active, w.upsert entries = .ok active := by
  obtain ⟨rows, hrows⟩ := exists_upsertRows (fun e he => (h e he).imp fun _ hrow => hrow.1) hkeys
  obtain ⟨hnodup, hpairs⟩ := upsertRows_ok hrows w.stock.active.keys
  obtain ⟨hwritten, hother⟩ := upsertRows_find hrows hkeys
  rw [World.upsert, hrows]
  refine writeDevices_of hnodup (fun d hd => ?_) fun d hd hnew _ hretired => ?_
  · have hfound := findPair_of_mem hnodup hd
    by_cases hp : d.pair ∈ entries.map Entry.pair
    · obtain ⟨e, he, hpair⟩ := List.mem_map.mp hp
      obtain ⟨row, hrow, hsome⟩ := hwritten e he
      obtain ⟨row', hrow', hplaced⟩ := h e he
      rw [hpair, hfound] at hsome
      rw [hrow'] at hrow
      rw [Option.some.inj hsome, ← Except.ok.inj hrow]
      exact Or.inr hplaced
    · rw [hother d.pair hp] at hfound
      exact Or.inl (findPair_some hfound).1
  · rcases (hpairs d.pair).mp (mem_pairs.mpr ⟨d, hd, rfl⟩) with hold | ⟨e, he, hpair⟩
    · exact hnew hold
    · refine hfree e he ?_
      rw [Entry.pair, hpair]
      exact hretired

end Upsert

end SentinelNet.Inventory
