import SentinelNet.Lib.Runs
import SentinelNet.Probes.AgentRequests

/-!
# The boundary of a site

What the agent of a probe reports should leave the rows of all other probes as they are, and a
heartbeat should answer with devices only that were the probe's before the agent said anything.  A
push takes the row from its organization and its address alone, whosever it is, and the name of a
device goes to the first row with its address, of whatever organization.

* `Central.managed`: the central manages the devices of a probe.
* `run_contained`: it holds after every run of requests within the site.
* `agent_crosses`: a push takes the row of a neighbour, and the next heartbeat has its password.
-/

namespace SentinelNet.Probes

open Observability PyDict PyText Inventory StepRuns

/-! ## Requests within the site -/

def Central.managed (s : Central) (probeId : String) : Prop :=
  ∃ k probe, get? s.registry k = some probe ∧ probe.id = probeId ∧ probe.managed = true

section Boundary

variable (env : Surroundings) (probeId : String)

/-- A request that is authenticated as a probe. -/
def Request.From (s : Central) (r : Request) : Prop :=
  ∃ s' probe, getAgentProbe env s r = .ok (s', probe) ∧ probe.id = probeId

/-- A name for the first row with an address, if this is a row of the probe or has the name. -/
def RenameWithin (s : Central) (ip hostname : String) : Prop :=
  hostname ≠ "" → ∀ row, s.table.rows.find? (fun d => d.ip = ip) = some row →
    row.probe = probeId ∨ row.hostname = hostname

/-- A device of a push that the inventory takes: it has a row of the probe, or none where the
central does not manage the probe. -/
def EntryWithin (view : PushView) (s : Central) (d : PushedDevice) : Prop :=
  ∀ group location table, place view s.locations probeId d = .inside group location →
    s.upsert env probeId d group location = .ok table →
      (∀ row, findPair s.table.rows (group, d.ip) = some row → row.probe = probeId) ∧
      (s.managed probeId → (findPair s.table.rows (group, d.ip)).isSome) ∧
      RenameWithin probeId s d.ip d.hostname

/-- What an agent asks is within its site. -/
def BodyWithin (s : Central) : Body → Prop
  | .inventory devices =>
    Run (pushDevice env probeId s.view) (EntryWithin env probeId s.view) s devices
      (pushInventory env probeId s devices)
  | .backup b => s.refusal probeId b = none → RenameWithin probeId s b.ip b.hostname
  | _ => True

/-- A request is within its site when its token was checked. -/
def Within (s : Central) (r : Request) : Prop :=
  ∀ s' probe, getAgentProbe env s r = .ok (s', probe) → BodyWithin env probeId s' r.body

end Boundary

/-! ## What stays of the inventory -/

/-- The rows of the other probes stay as they are, and where the central manages the probe each of
its rows was its row before. -/
structure Contained (probeId : String) (managed : Prop) (before after : List Host) : Prop where
  others : ∀ d ∈ before, d.probe ≠ probeId → d ∈ after
  own : managed → ∀ d ∈ after, d.probe = probeId → ∃ o ∈ before, o.pair = d.pair ∧ o.probe = probeId

variable {env : Surroundings} {probeId : String} {managed : Prop}

theorem Contained.refl (rows : List Host) : Contained probeId managed rows rows where
  others _ hd _ := hd
  own _ d hd hprobe := ⟨d, hd, rfl, hprobe⟩

theorem Contained.trans {rows rows' rows'' : List Host} (h : Contained probeId managed rows rows')
    (h' : Contained probeId managed rows' rows'') : Contained probeId managed rows rows'' where
  others d hd hprobe := h'.others d (h.others d hd hprobe) hprobe
  own hmanaged d hd hprobe := by
    obtain ⟨o, ho, hpair, hown⟩ := h'.own hmanaged d hd hprobe
    obtain ⟨o', ho', hpair', hown'⟩ := h.own hmanaged o ho hown
    exact ⟨o', ho', hpair'.trans hpair, hown'⟩

variable {s : Central}

theorem contained_rename {ip hostname : String} (h : RenameWithin probeId s ip hostname) :
    Contained probeId managed s.table.rows (s.rename ip hostname).table.rows := by
  rw [Central.rename]
  split
  · exact Contained.refl _
  · next hname =>
    refine ⟨fun d hd hprobe => ?_, fun _ d hd hprobe => ?_⟩
    · refine mem_renameFirst hd fun hfound => ?_
      have hfound : s.table.rows.find? (fun d => d.ip = ip) = some d := by simpa using hfound
      exact (h hname d hfound).resolve_left hprobe
    · obtain ⟨o, ho, hpair, hown⟩ := of_mem_renameFirst hd
      exact ⟨o, ho, hpair, hown.trans hprobe⟩

variable {d : PushedDevice} {group location : String} {table : Table}

theorem upsert_ok (hprobe : probeId ≠ "") (h : s.upsert env probeId d group location = .ok table) :
    ∃ row, row.pair = (group, d.ip) ∧ row.probe = probeId ∧
      table.rows = s.table.rows.map (fun o => if o.pair = (group, d.ip) then row else o) ++
        if s.table.rows.any fun o => o.pair = (group, d.ip) then [] else [row] := by
  obtain ⟨loc, locProbe, transports, row, hrow, hrows⟩ := addOrUpdateDevice_ok h
  have hpair : row.pair = (group, d.ip) := by
    rw [hrow]
    rfl
  refine ⟨row, hpair, ?_, ?_⟩
  · rw [hrow]
    simp [entryRow, pushedEntry, Inventory.orElse, hprobe]
  · rw [hpair] at hrows
    exact hrows

/-- The first row with an address after an entry of a push: the one from before, with the entry in
its place if it has the key. -/
theorem find?_upsert {rows : List Host} {ip : String} {row : Host}
    (hpair : row.pair = (group, ip)) :
    (rows.map (fun o => if o.pair = (group, ip) then row else o) ++
      if rows.any fun o => o.pair = (group, ip) then [] else [row]).find? (fun d => d.ip = ip) =
    some ((rows.find? fun d => d.ip = ip).elim row fun o => if o.pair = (group, ip) then row else o) := by
  have hip : row.ip = ip := congrArg Prod.snd hpair
  have hsame : ((fun d : Host => decide (d.ip = ip)) ∘
      fun o => if o.pair = (group, ip) then row else o) = fun o => decide (o.ip = ip) := by
    funext o
    simp only [Function.comp]
    split
    · next ho => rw [hip, show o.ip = ip from congrArg Prod.snd ho]
    · rfl
  rw [List.find?_append, List.find?_map, hsame]
  cases hfound : rows.find? fun d => d.ip = ip with
  | some o => rfl
  | none =>
    have hnone : (rows.any fun o => o.pair = (group, ip)) = false := by
      refine List.any_eq_false.mpr fun o ho hpair' => ?_
      have hne := List.find?_eq_none.mp hfound o ho
      exact hne (decide_eq_true (congrArg Prod.snd (of_decide_eq_true hpair')))
    rw [hnone]
    simp [hip]

theorem contained_upsert
    (hprobe : probeId ≠ "") (h : s.upsert env probeId d group location = .ok table)
    (hrow : ∀ row, findPair s.table.rows (group, d.ip) = some row → row.probe = probeId)
    (hnew : managed → (findPair s.table.rows (group, d.ip)).isSome) :
    Contained probeId managed s.table.rows table.rows := by
  obtain ⟨row, hpair, -, hrows⟩ := upsert_ok hprobe h
  have hown : ∀ o ∈ s.table.rows, o.pair = (group, d.ip) → o.probe = probeId := fun o ho ho' =>
    hrow o (ho' ▸ findPair_of_mem s.table.keys ho)
  rw [hrows]
  refine ⟨fun o ho hother => ?_, fun hmanaged o ho hprobe => ?_⟩
  · refine List.mem_append_left _ (List.mem_map.mpr ⟨o, ho, if_neg fun ho' => ?_⟩)
    exact hother (hown o ho ho')
  · obtain ⟨old, hold⟩ := Option.isSome_iff_exists.mp (hnew hmanaged)
    obtain ⟨hmem, hkey⟩ := findPair_some hold
    have hany : (s.table.rows.any fun o => o.pair = (group, d.ip)) = true :=
      List.any_eq_true.mpr ⟨old, hmem, decide_eq_true hkey⟩
    rw [hany, if_pos rfl, List.append_nil] at ho
    obtain ⟨o', ho', rfl⟩ := List.mem_map.mp ho
    by_cases hkey' : o'.pair = (group, d.ip)
    · rw [if_pos hkey']
      exact ⟨o', ho', hkey'.trans hpair.symm, hown o' ho' hkey'⟩
    · rw [if_neg hkey'] at hprobe ⊢
      exact ⟨o', ho', rfl, hprobe⟩

theorem renameWithin_upsert (hprobe : probeId ≠ "")
    (h : s.upsert env probeId d group location = .ok table)
    (hname : RenameWithin probeId s d.ip d.hostname) :
    RenameWithin probeId { s with table := table } d.ip d.hostname := by
  obtain ⟨row, hpair, hown, hrows⟩ := upsert_ok hprobe h
  intro hhost row' hfound
  rw [show ({ s with table := table } : Central).table.rows = table.rows from rfl, hrows,
    find?_upsert hpair] at hfound
  cases hold : s.table.rows.find? fun o => o.ip = d.ip with
  | none =>
    rw [hold] at hfound
    rw [← Option.some.inj hfound]
    exact Or.inl hown
  | some o =>
    rw [hold] at hfound
    rw [← Option.some.inj hfound]
    simp only [Option.elim]
    split
    · exact Or.inl hown
    · exact hname hhost o hold

theorem contained_pushDevice {view : PushView}
    (hprobe : probeId ≠ "") (h : EntryWithin env probeId view s d) :
    Contained probeId (s.managed probeId) s.table.rows
      (pushDevice env probeId view s d).table.rows := by
  rw [pushDevice]
  split
  · exact Contained.refl _
  · exact Contained.refl _
  · next group location hplace =>
    split
    · exact Contained.refl _
    · next table hok =>
      obtain ⟨hrow, hnew, hname⟩ := h group location table hplace hok
      exact (contained_upsert hprobe hok hrow hnew).trans
        (contained_rename (renameWithin_upsert hprobe hok hname))

/-! ## What stays of the registry -/

/-- What a request reads of a probe: its id, and whether the central manages its devices. -/
def Probe.face (probe : Probe) : String × Bool := (probe.id, probe.managed)

/-- Every probe has the id and the flag that it had. -/
def SameFaces (reg reg' : Registry) : Prop :=
  ∀ k, (get? reg' k).map Probe.face = (get? reg k).map Probe.face

theorem SameFaces.refl (reg : Registry) : SameFaces reg reg := fun _ => rfl

variable {reg : Registry}

theorem SameFaces.trans {reg' reg'' : Registry} (h : SameFaces reg reg')
    (h' : SameFaces reg' reg'') : SameFaces reg reg'' := fun k => (h' k).trans (h k)

variable {probe : Probe}

theorem SameFaces.set {k : String} {old : Probe}
    (hold : get? reg k = some old) (h : probe.face = old.face) :
    SameFaces reg (PyDict.set reg k probe) := by
  intro k'
  rw [get?_set]
  split
  · next hk => rw [hk, hold, Option.map_some, Option.map_some, h]
  · rfl

theorem SameFaces.managed_iff {s' : Central} (h : SameFaces s.registry s'.registry) :
    s'.managed probeId ↔ s.managed probeId := by
  have himp {reg reg' : Registry} (hfaces : SameFaces reg reg')
      (hmanaged : ∃ k probe, get? reg k = some probe ∧ probe.id = probeId ∧ probe.managed = true) :
      ∃ k probe, get? reg' k = some probe ∧ probe.id = probeId ∧ probe.managed = true := by
    obtain ⟨k, probe, hget, hid, hflag⟩ := hmanaged
    have hface := hfaces k
    rw [hget, Option.map_some] at hface
    obtain ⟨probe', hget', hsame⟩ := Option.map_eq_some_iff.mp hface
    exact ⟨k, probe', hget', (congrArg Prod.fst hsame).trans hid,
      (congrArg Prod.snd hsame).trans hflag⟩
  exact ⟨himp fun k => (h k).symm, himp h⟩

theorem sameFaces_touchLastSeen (reg : Registry) (id : String) (now : ℚ) :
    SameFaces reg (touchLastSeen reg id now) := by
  rw [touchLastSeen]
  cases hget : get? reg id with
  | none => exact SameFaces.refl reg
  | some probe => exact SameFaces.set hget rfl

theorem sameFaces_recordUnlocatedDevice (reg : Registry) (id : String) (count : ℕ) :
    SameFaces reg (recordUnlocatedDevice reg id count) := by
  rw [recordUnlocatedDevice]
  cases hget : get? reg id with
  | none => exact SameFaces.refl reg
  | some probe => exact SameFaces.set hget rfl

theorem managed_not_mem_reported (payload : Dict Json) :
    "central_manages_devices" ∉ (reported payload).map Prod.fst := by
  intro hmem
  obtain ⟨update, hupdate, hkey⟩ := List.mem_map.mp hmem
  obtain ⟨key, hkeys, hsome⟩ := List.mem_filterMap.mp hupdate
  obtain ⟨v, -, rfl⟩ := Option.map_eq_some_iff.mp hsome
  have hnot : ∀ key ∈ reportedKeys, key.2 ≠ "central_manages_devices" := by decide
  exact hnot key hkeys hkey

variable {payload : Dict Json}

theorem face_of_updated {p : Probe}
    (h : probe.updated none none { others := reported payload } = .ok p) : p.face = probe.face := by
  obtain ⟨q, r, hq, hr, heq⟩ := updated_ok h
  have hq' : q.id = probe.id ∧ q.others = probe.others := by
    rcases switchTo_ok hq with ⟨-, hq⟩ | ⟨m, hm, -⟩
    · rw [hq]
      exact ⟨rfl, rfl⟩
    · simp at hm
  have hr' : r.id = q.id ∧ r.others = q.others := by
    rcases given_ok hr with ⟨-, b, -, hr⟩ | ⟨-, hr⟩
    · rw [hr]
      exact ⟨rfl, rfl⟩
    · rw [hr]
      exact ⟨rfl, rfl⟩
  have hothers : p.others = assign probe.others (reported payload) := by
    rw [heq, ← hq'.2, ← hr'.2]
  have hid : p.id = probe.id := by rw [heq, ← hq'.1, ← hr'.1]
  rw [Probe.face, Probe.face, Probe.managed, Probe.managed, hid, hothers,
    get?_assign_of_not_mem (managed_not_mem_reported payload)]

theorem sameFaces_reportState {reg' : Registry} {id : String}
    (h : reportState id reg payload = .ok reg') : SameFaces reg reg' := by
  rw [reportState] at h
  split at h
  · rw [← Except.ok.inj h]
    exact SameFaces.refl reg
  · cases hupdate : updateProbe reg id none none { others := reported payload } with
    | error e =>
      rw [hupdate] at h
      exact absurd h (by simp [Except.map])
    | ok result =>
      obtain ⟨found, reg''⟩ := result
      rw [hupdate] at h
      rw [← Except.ok.inj h]
      rcases updateProbe_ok hupdate with ⟨-, -, heq⟩ | ⟨-, probe, p, hget, hp, heq⟩
      · rw [heq]
        exact SameFaces.refl reg
      · rw [heq]
        exact SameFaces.set hget (face_of_updated hp)

/-! ## Requests -/

@[simp] theorem rename_registry (s : Central) (ip hostname : String) :
    (s.rename ip hostname).registry = s.registry := by
  rw [Central.rename]
  split <;> rfl

theorem sameFaces_pushDevice (view : PushView) (s : Central) (d : PushedDevice) :
    SameFaces s.registry (pushDevice env probeId view s d).registry := by
  rw [pushDevice]
  split
  · exact SameFaces.refl _
  · exact sameFaces_recordUnlocatedDevice _ _ _
  · split
    · exact SameFaces.refl _
    · rw [rename_registry]
      exact SameFaces.refl _

theorem getAgentProbe_ok {s' : Central} {r : Request}
    (h : getAgentProbe env s r = .ok (s', probe)) :
    s' = { s with registry := s'.registry } ∧ SameFaces s.registry s'.registry ∧
      ∃ k, get? s'.registry k = some probe := by
  rw [getAgentProbe] at h
  split at h
  · simp at h
  · next id hid =>
    dsimp only at h
    split at h
    · simp at h
    · next found hfound =>
      obtain ⟨rfl, rfl⟩ := Prod.mk.inj (Except.ok.inj h)
      exact ⟨rfl, sameFaces_touchLastSeen _ _ _, id, hfound⟩

theorem heartbeat_state (env : Surroundings) (s : Central) (probe : Probe) (payload : Dict Json)
    (secure : Bool) : (heartbeat env s probe payload secure).1.table = s.table ∧
      SameFaces s.registry (heartbeat env s probe payload secure).1.registry := by
  rw [heartbeat]
  split
  · exact ⟨rfl, SameFaces.refl _⟩
  · next reg hreg =>
    have hfaces := sameFaces_reportState hreg
    dsimp only
    split
    · split
      · exact ⟨rfl, hfaces⟩
      · exact ⟨rfl, hfaces⟩
    · exact ⟨rfl, hfaces⟩

theorem serve_effect {stamp : String} {body : Body}
    (hprobe : probe.id ≠ "") (h : BodyWithin env probe.id s body) :
    Contained probe.id (s.managed probe.id) s.table.rows
        (serve env s probe stamp body).1.table.rows ∧
      SameFaces s.registry (serve env s probe stamp body).1.registry := by
  cases body with
  | inventory devices =>
    refine Run.invariant (I := fun t => Contained probe.id (s.managed probe.id) s.table.rows
      t.table.rows ∧ SameFaces s.registry t.registry) (fun t d ht hd => ?_) h
      ⟨Contained.refl _, SameFaces.refl _⟩
    have hstep := contained_pushDevice hprobe hd
    rw [propext ht.2.managed_iff] at hstep
    exact ⟨ht.1.trans hstep, ht.2.trans (sameFaces_pushDevice _ t d)⟩
  | status devices => exact ⟨Contained.refl _, SameFaces.refl _⟩
  | backup b =>
    rw [serve]
    cases hrefusal : s.refusal probe.id b with
    | some refusal => exact ⟨Contained.refl _, SameFaces.refl _⟩
    | none =>
      dsimp only
      rw [storeBackup, rename_registry]
      have hname : RenameWithin probe.id { s with
          versions := updateVersionInventory env s.versions stamp b.ip b.vendor (.str b.version)
            "online" b.model b.serial } b.ip b.hostname := h hrefusal
      exact ⟨contained_rename hname, SameFaces.refl _⟩
  | heartbeat payload secure =>
    obtain ⟨htable, hfaces⟩ := heartbeat_state env s probe payload secure
    rw [serve, htable]
    exact ⟨Contained.refl _, hfaces⟩

theorem handle_effect {r : Request} (hprobe : probeId ≠ "")
    (hfrom : r.From env probeId s) (h : Within env probeId s r) :
    Contained probeId (s.managed probeId) s.table.rows (handle env s r).1.table.rows ∧
      SameFaces s.registry (handle env s r).1.registry := by
  obtain ⟨s', probe, hok, rfl⟩ := hfrom
  obtain ⟨hsame, hfaces, -⟩ := getAgentProbe_ok hok
  have htable : s'.table = s.table := by rw [hsame]
  obtain ⟨hrows, hserved⟩ := @serve_effect env s' probe r.stamp r.body hprobe (h s' probe hok)
  rw [handle, hok]
  rw [propext hfaces.managed_iff, htable] at hrows
  exact ⟨hrows, hfaces.trans hserved⟩

theorem deviceItem_ok {withCredentials : Bool} {d : Host} {item : DeviceItem}
    (h : deviceItem env s withCredentials d = .ok item) : d.pair = (item.group, item.ip) := by
  rw [deviceItem] at h
  split at h
  · cases hcredentials : env.credentials s d with
    | error e =>
      rw [hcredentials] at h
      exact absurd h (by simp [Except.map])
    | ok credentials =>
      rw [hcredentials] at h
      rw [← Except.ok.inj h]
      rfl
  · rw [← Except.ok.inj h]
    rfl

variable {items : List DeviceItem}

theorem devicesForProbe_ok {withCredentials : Bool}
    (h : devicesForProbe env probeId s withCredentials = .ok items) : ∀ item ∈ items,
      ∃ d ∈ s.table.rows, d.pair = (item.group, item.ip) ∧ d.probe = probeId := by
  intro item hitem
  obtain ⟨d, hd, hok⟩ := mem_mapM_ok h hitem
  obtain ⟨hmem, hkept⟩ := List.mem_filter.mp hd
  rw [Bool.and_eq_true] at hkept
  exact ⟨d, hmem, deviceItem_ok hok, of_decide_eq_true hkept.1⟩

theorem heartbeat_devices {secure flag : Bool} {id name : String}
    (h : (heartbeat env s probe payload secure).2 = .alive id name (some (items, flag))) :
    probe.managed = true ∧ ∀ item ∈ items,
      ∃ d ∈ s.table.rows, d.pair = (item.group, item.ip) ∧ d.probe = probe.id := by
  rw [heartbeat] at h
  split at h
  · simp at h
  · dsimp only at h
    split at h
    · next hmanaged =>
      split at h
      · simp at h
      · next devices hdevices =>
        obtain ⟨-, -, hsome⟩ := Response.alive.inj h
        obtain ⟨rfl, -⟩ := Prod.mk.inj (Option.some.inj hsome)
        have hitems := devicesForProbe_ok hdevices
        exact ⟨hmanaged, hitems⟩
    · simp at h

theorem handle_devices {r : Request} (hfrom : r.From env probeId s)
    {id name : String} {secure : Bool}
    (h : (handle env s r).2 = .alive id name (some (items, secure))) :
    s.managed probeId ∧ ∀ item ∈ items,
      ∃ d ∈ s.table.rows, d.pair = (item.group, item.ip) ∧ d.probe = probeId := by
  obtain ⟨s', probe, hok, rfl⟩ := hfrom
  obtain ⟨hsame, hfaces, k, hget⟩ := getAgentProbe_ok hok
  have htable : s'.table = s.table := by rw [hsame]
  rw [handle, hok] at h
  dsimp only at h
  cases hbody : r.body with
  | inventory devices =>
    rw [hbody] at h
    exact absurd h (by simp [serve])
  | status devices =>
    rw [hbody] at h
    exact absurd h (by simp [serve])
  | backup b =>
    rw [hbody, serve] at h
    cases hrefusal : s'.refusal probe.id b with
    | none =>
      rw [hrefusal] at h
      simp at h
    | some refusal =>
      rw [hrefusal] at h
      simp at h
  | heartbeat payload flag =>
    rw [hbody, serve] at h
    obtain ⟨hmanaged, hitems⟩ := heartbeat_devices h
    rw [htable] at hitems
    exact ⟨hfaces.managed_iff.mp ⟨k, probe, hget, rfl, hmanaged⟩, hitems⟩

/-! ## Runs -/

def SiteRequest (env : Surroundings) (probeId : String) (s : Central) (r : Request) : Prop :=
  r.From env probeId s ∧ Within env probeId s r

/-- The rows of the other probes are as they were, and every device in an answer to the probe was a
row of the probe. -/
def KeepsToSite (env : Surroundings) (probeId : String) (s s' : Central) : Prop :=
  (∀ d ∈ s.table.rows, d.probe ≠ probeId → d ∈ s'.table.rows) ∧
    ∀ r, r.From env probeId s' → ∀ id name items secure,
      (handle env s' r).2 = .alive id name (some (items, secure)) → ∀ item ∈ items,
        ∃ d ∈ s.table.rows, d.pair = (item.group, item.ip) ∧ d.probe = probeId

/-- A run of requests of a probe within its site keeps to the site. -/
theorem run_contained {s s' : Central} {rs : List Request} (hprobe : probeId ≠ "")
    (hrun : Run (fun s r => (handle env s r).1) (SiteRequest env probeId) s rs s') :
    KeepsToSite env probeId s s' := by
  obtain ⟨hrows, hfaces⟩ := Run.invariant (I := fun t => Contained probeId (s.managed probeId)
    s.table.rows t.table.rows ∧ SameFaces s.registry t.registry) (fun t r ht hr => by
      obtain ⟨hstep, hface⟩ := handle_effect hprobe hr.1 hr.2
      rw [propext ht.2.managed_iff] at hstep
      exact ⟨ht.1.trans hstep, ht.2.trans hface⟩) hrun ⟨Contained.refl _, SameFaces.refl _⟩
  refine ⟨hrows.others, fun r hfrom id name items secure hanswer item hitem => ?_⟩
  obtain ⟨hmanaged, hitems⟩ := handle_devices hfrom hanswer
  obtain ⟨d, hd, hpair, hown⟩ := hitems item hitem
  obtain ⟨o, ho, hpair', hown'⟩ := hrows.own (hfaces.managed_iff.mp hmanaged) d hd hown
  exact ⟨o, ho, hpair'.trans hpair, hown'⟩

/-! ## A site and its neighbour -/

/-- A row with the port 22 alone. -/
def plainHost (ip group probe location : String) : Host :=
  ⟨ip, "cisco", "custom", "admin", "k1", "", group, "", probe, location, "22", "", "", ""⟩

/-- Two customers: the central reaches the router of `acme`, the agent of `branch` the one of
`beta`. -/
def twoSites : Central where
  table := ⟨[plainHost "10.0.0.1" "acme" "central" "hq",
    plainHost "10.0.0.2" "beta" "branch" "depot"], by decide⟩
  decommissioned := []
  locations := [⟨"depot", "beta", "branch"⟩, ⟨"hq", "acme", "central"⟩]
  versions := []
  registry := [("branch",
    { id := "branch", name := "Branch", mode := .agent, tokenHash := some "t", created := 0,
      others := [("central_manages_devices", .bool true)] })]

/-- A vault that encrypts nothing, and `json` of the port 22 alone. -/
def plainSurroundings : Surroundings where
  codec := {
    python := ⟨fun _ => "", fun _ => none⟩
    loads := fun text =>
      if text = "\x7b\"ssh\":22\x7d" then some (.obj [("ssh", .int 22)]) else none
    dumps := fun _ => "\x7b\"ssh\":22\x7d"
    encrypt := id }
  hashToken := id
  cleanVersion := id
  credentials := fun _ d => .ok (d.username, d.password, d.enableSecret)

/-- What the agent of `branch` asks. -/
def branchRequest (body : Body) : Request := ⟨"t", none, 1, "2026-10-10T00:00:00", body⟩

/-- A push with the device of the neighbour. -/
def crossing : Request := branchRequest (.inventory [{ ip := "10.0.0.1", group := some "acme" }])

/-- A push with the device of the site. -/
def report : Request :=
  branchRequest (.inventory [{ ip := "10.0.0.2", group := some "beta", hostname := "edge" }])

theorem branch_from (s : Central) (body : Body)
    (h : (getAgentProbe plainSurroundings s (branchRequest body)).toOption.any
      fun found => found.2.id = "branch") :
    (branchRequest body).From plainSurroundings "branch" s := by
  cases hok : getAgentProbe plainSurroundings s (branchRequest body) with
  | error e =>
    rw [hok] at h
    exact absurd h (by simp [Except.toOption])
  | ok found =>
    rw [hok] at h
    exact ⟨found.1, found.2, hok, of_decide_eq_true h⟩

/-- The neighbour's router goes to `branch`, and the next heartbeat has its password. -/
theorem agent_crosses :
    Run (fun s r => (handle plainSurroundings s r).1) (Request.From plainSurroundings "branch")
        twoSites [crossing] (handle plainSurroundings twoSites crossing).1 ∧
      (∃ d ∈ twoSites.table.rows, d.probe ≠ "branch" ∧
        d ∉ (handle plainSurroundings twoSites crossing).1.table.rows) ∧
      ∃ id name items, (handle plainSurroundings (handle plainSurroundings twoSites crossing).1
          (branchRequest (.heartbeat [] true))).2 = .alive id name (some (items, true)) ∧
        ∃ item ∈ items, item.credentials = some ("admin", "k1", "") ∧
          ¬ ∃ d ∈ twoSites.table.rows, d.pair = (item.group, item.ip) ∧ d.probe = "branch" := by
  refine ⟨Run.cons (branch_from _ _ (by decide)) (Run.nil _), ?_, "branch", "Branch", _, rfl,
    ⟨"10.0.0.1", "cisco", "acme", "", "22", some ("admin", "k1", "")⟩, List.mem_cons_self, rfl, ?_⟩
  · exact ⟨plainHost "10.0.0.1" "acme" "central" "hq", List.mem_cons_self, by decide,
      by decide⟩
  · decide

/-- The report of the site's own device keeps to the site. -/
theorem run_contained_report : KeepsToSite plainSurroundings "branch" twoSites
    (handle plainSurroundings twoSites report).1 := by
  refine run_contained (by decide)
    (Run.cons ⟨branch_from _ _ (by decide), fun s' probe hok => ?_⟩ (Run.nil _))
  obtain ⟨hsame, -, -⟩ := getAgentProbe_ok hok
  have hplaced : place twoSites.view twoSites.locations "branch"
      { ip := "10.0.0.2", group := some "beta", hostname := "edge" } = .inside "beta" "depot" := by
    decide
  have hfound : findPair twoSites.table.rows ("beta", "10.0.0.2") =
      some (plainHost "10.0.0.2" "beta" "branch" "depot") := by decide
  have hfirst : twoSites.table.rows.find? (fun d => d.ip = "10.0.0.2") =
      some (plainHost "10.0.0.2" "beta" "branch" "depot") := by decide
  rw [hsame]
  refine Run.cons (fun group location table hplace _ => ?_) (Run.nil _)
  obtain ⟨rfl, rfl⟩ := Placement.inside.inj (hplace.symm.trans hplaced)
  refine ⟨fun row hrow => ?_, fun _ => ?_, fun _ row hrow => Or.inl ?_⟩
  · rw [← Option.some.inj (hfound.symm.trans hrow)]
    rfl
  · exact Option.isSome_iff_exists.mpr ⟨_, hfound⟩
  · rw [← Option.some.inj (hfirst.symm.trans hrow)]
    rfl

end SentinelNet.Probes
