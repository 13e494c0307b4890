import SentinelNet.Triage.Schedules

/-!
# The authority of a schedule

A schedule acts for the user who created it, and that user may be limited to some groups, by then or
since.  The requests recompute the limits with a test of the role, where `user_group_scope` has the
groups of every user but a super administrator.

* `within_iff_proper`: these agree.
* `within_of_guarded`: it does for creators whose tenant is theirs, and for all other users than
  administrators limited to groups.
-/

namespace SentinelNet.Triage

open Inventory (Host)
open Sessions (Role isAdmin)
open Users (Store CurrentUser Record)

/-! ## Uses of the schedules -/

/-- The accounts, the inventory and the schedules at one moment. -/
structure World where
  users : Store
  inventory : List Host
  schedules : Schedules
  now : ℚ
  /-- A triage is running. -/
  busy : Bool

/-- What is done with the schedules. -/
inductive Use where
  | execute (id : ℕ)
  | list (me : CurrentUser)
  | create (me : CurrentUser) (p : Payload)
  | update (me : CurrentUser) (id : ℕ) (p : Payload)
  | delete (me : CurrentUser) (id : ℕ)

/-- The groups of an account, if they limit it: `user_group_scope`. -/
def groupsOf (users : Store) (username : String) : Option (List String) :=
  (users.getRole username).bind fun role => users.scopeOf ⟨username, role⟩

def Inside (scope : Option (List String)) (tenant : String) : Prop :=
  ∀ groups, scope = some groups → tenant ∈ groups

/-- The creator of a schedule has an account that is not disabled, and may see a device. -/
structure MaySee (users : Store) (creator : String) (d : Host) : Prop where
  exists_role : ∃ role, users.getRole creator = some role
  enabled : users.isDisabled creator = false
  inScope : ∀ groups, groupsOf users creator = some groups → d.group ∈ groups

/-- A schedule inside the groups of a user, or, if `own` says so, one that the user created. -/
def Reachable (users : Store) (own : Bool) (me : CurrentUser) (s : Schedule) : Prop :=
  own = true ∧ s.createdBy = me.sub ∨ Inside (users.scopeOf me) s.tenant

variable (env : Surroundings) (w : World) (own : Bool)

/-- What is done stays within the authority of its user: an execution reaches devices that the
creator may see, and a user limited to groups sees, names and changes schedules inside them. -/
def Within : Use → Prop
  | .execute id => ∀ s, w.schedules.get id = some s →
    ∀ d ∈ (executeScheduleJob w.users w.inventory env w.busy (some s)).reached,
      MaySee w.users s.createdBy d
  | .list me => ∀ s ∈ getSchedules w.users w.schedules me, Reachable w.users own me s
  | .create me p => ∀ t, createSchedule w.users w.inventory w.now w.schedules me p = .ok t →
    Inside (w.users.scopeOf me) (PyText.strip p.tenant)
  | .update me id p => ∀ s t, w.schedules.get id = some s →
    updateSchedule w.users w.inventory w.now w.schedules id me p = .ok t →
      Reachable w.users own me s ∧ Inside (w.users.scopeOf me) (PyText.strip p.tenant)
  | .delete me id => ∀ s t, w.schedules.get id = some s →
    deleteSchedule w.users w.schedules id me = .ok t → Reachable w.users own me s

/-! ## When they do -/

/-- A device that a schedule selects and that is contacted or queued if the execution goes on. -/
structure Eligible (s : Schedule) (d : Host) : Prop where
  selected : d ∈ selected w.users w.inventory env s
  isManual : env.isManual d = false
  pending : env.isAgentProbe d.probe = true → env.pending (jobOf d) = false

/-- An execution is proper if the creator has an account that is not disabled, and the tenant of the
schedule is inside its groups, or, for all tenants, it is no administrator limited to groups that do
not have all devices. -/
structure ProperExecution (s : Schedule) : Prop where
  exists_role : ∃ role, w.users.getRole s.createdBy = some role
  enabled : w.users.isDisabled s.createdBy = false
  tenant : s.tenant ≠ "all" → ∀ groups, groupsOf w.users s.createdBy = some groups →
    s.tenant ∈ groups
  all : s.tenant = "all" → w.users.getRole s.createdBy = some .admin →
    ∀ groups, groupsOf w.users s.createdBy = some groups →
      ∀ d, Eligible env w s d → d.group ∈ groups

/-- A schedule is within reach of a user who is an administrator or has created it; other users are
checked. -/
def ProperAccess (me : CurrentUser) (s : Schedule) : Prop :=
  isAdmin me.role = true ∨ s.createdBy = me.sub → Reachable w.users own me s

/-- A tenant that an administrator names is inside its groups; others are checked. -/
def ProperName (me : CurrentUser) (tenant : String) : Prop :=
  isAdmin me.role = true → Inside (w.users.scopeOf me) tenant

/-- When what is done stays within the authority of its user. -/
def Proper : Use → Prop
  | .execute id => ∀ s, w.schedules.get id = some s → w.busy = false →
    (∃ d, Eligible env w s d) → ProperExecution env w s
  | .list me => ∀ s ∈ w.schedules.rows, ProperAccess w own me s
  | .create me p =>
    PyText.strip p.name ≠ "" → PyText.strip p.tenant ≠ "" →
      checkDevices w.users w.inventory me (PyText.strip p.tenant) (wantedIps p.devices) = none →
        ProperName w me (PyText.strip p.tenant)
  | .update me id p => ∀ s, w.schedules.get id = some s →
    checkTenant w.users me (PyText.strip p.tenant) = none →
      checkDevices w.users w.inventory me (PyText.strip p.tenant) (wantedIps p.devices) = none →
        ProperAccess w own me s ∧ ProperName w me (PyText.strip p.tenant)
  | .delete me id => ∀ s, w.schedules.get id = some s → ProperAccess w own me s

variable {env : Surroundings} {w : World} {own : Bool}

/-! ## Executions -/

theorem groupsOf_eq_some {users : Store} {username : String} {groups : List String}
    (h : groupsOf users username = some groups) :
    ∃ r, users.user username = some r ∧ r.roleOf ≠ .superAdmin ∧ r.groups = groups := by
  obtain ⟨role, hrole, hscope⟩ := Option.bind_eq_some_iff.mp h
  obtain ⟨r, hr, rfl⟩ := Option.map_eq_some_iff.mp hrole
  rw [Store.scopeOf] at hscope
  split at hscope
  · simp at hscope
  · next hlimited =>
    have hgroups : users.getUserGroups username = r.groups := by
      rw [Store.getUserGroups, hr, Option.map_some, Option.getD_some]
    exact ⟨r, hr, fun h => hlimited (Or.inl h), hgroups.symm.trans (Option.some.inj hscope)⟩

variable {s : Schedule}

theorem mem_of_mem_wanted {d : Host} {l : List Host} {q : Host → Bool} {P : Prop} [Decidable P]
    (h : d ∈ if P then l else l.filter q) : d ∈ l := by
  split at h
  · exact h
  · exact List.mem_of_mem_filter h

theorem mem_selected {d : Host} (h : d ∈ selected w.users w.inventory env s) :
    if s.tenant ≠ "all" then d.group = s.tenant
    else ∀ scope, creatorScope w.users s.createdBy = some scope → d.group ∈ scope := by
  rw [selected] at h
  have hwanted := List.mem_of_mem_filter h
  have htenant := mem_of_mem_wanted hwanted
  split
  · next hnamed =>
    rw [if_pos hnamed] at htenant
    simpa using (List.mem_filter.mp htenant).2
  · next hall =>
    rw [if_neg hall] at htenant
    intro scope hscope
    rw [hscope] at htenant
    simpa using (List.mem_filter.mp htenant).2

theorem mem_reached {d : Host} (hbusy : w.busy = false) :
    d ∈ (executeScheduleJob w.users w.inventory env w.busy (some s)).reached ↔
      Eligible env w s d := by
  have hactive : (w.users.user s.createdBy).any (fun r => !active r) = false := by
    simp [active]
  rw [executeScheduleJob, hbusy, hactive]
  dsimp only
  rw [if_neg Bool.false_ne_true, if_neg Bool.false_ne_true]
  split
  · next hnone =>
    refine iff_of_false List.not_mem_nil fun h => ?_
    have hmem := h.selected
    rw [hnone] at hmem
    cases hmem
  · rw [Execution.reached, List.mem_append, Surroundings.direct, Surroundings.queued,
      List.mem_filter, List.mem_filter]
    simp only [Bool.and_eq_true, Bool.not_eq_true']
    constructor
    · rintro (⟨hd, hmanual, hprobe⟩ | ⟨hd, ⟨hmanual, hprobe⟩, hpending⟩)
      · exact ⟨hd, hmanual, fun h => absurd (hprobe.symm.trans h) Bool.false_ne_true⟩
      · exact ⟨hd, hmanual, fun _ => hpending⟩
    · rintro ⟨hd, hmanual, hpending⟩
      cases hprobe : env.isAgentProbe d.probe with
      | false => exact Or.inl ⟨hd, hmanual, rfl⟩
      | true => exact Or.inr ⟨hd, ⟨hmanual, rfl⟩, hpending hprobe⟩

/-- A device that is selected for all tenants is one that the creator may see, unless the creator is
an administrator limited to groups. -/
theorem group_mem_of_all {d : Host} (hd : Eligible env w s d)
    (hproper : ProperExecution env w s) (hall : s.tenant = "all") {groups : List String}
    (hgroups : groupsOf w.users s.createdBy = some groups) : d.group ∈ groups := by
  obtain ⟨r, hr, hsuper, rfl⟩ := groupsOf_eq_some hgroups
  by_cases hrole : r.role = some .admin
  · have hadmin : w.users.getRole s.createdBy = some .admin := by
      rw [Store.getRole, hr, Option.map_some, Record.roleOf, hrole, Option.getD_some]
    exact hproper.all hall hadmin r.groups hgroups d hd
  · have hselected := mem_selected hd.selected
    rw [if_neg (not_not.mpr hall)] at hselected
    refine hselected r.groups ?_
    rw [creatorScope, hr]
    refine if_neg ?_
    rintro (h | h)
    · exact hrole h
    · exact hsuper (by rw [Record.roleOf, h, Option.getD_some])

theorem within_execute_iff (id : ℕ) :
    Within env w own (.execute id) ↔ Proper env w own (.execute id) := by
  refine forall₂_congr fun s _ => ?_
  cases hbusy : w.busy with
  | true =>
    refine iff_of_true (fun d hd => nomatch hd) fun h => ?_
    exact absurd h (Bool.false_ne_true ∘ Eq.symm)
  | false =>
    have hreached (d : Host) := @mem_reached env w s d hbusy
    rw [hbusy] at hreached
    constructor
    · rintro hsee - ⟨d, hd⟩
      have hmay := hsee d ((hreached d).mpr hd)
      refine ⟨hmay.exists_role, hmay.enabled, fun hnamed groups hgroups => ?_,
        fun _ _ groups hgroups d hd => (hsee d ((hreached d).mpr hd)).inScope groups hgroups⟩
      have hselected := mem_selected hd.selected
      rw [if_pos hnamed] at hselected
      exact hselected ▸ hmay.inScope groups hgroups
    · intro hproper d hd
      have hd := (hreached d).mp hd
      have hproper := hproper rfl ⟨d, hd⟩
      refine ⟨hproper.exists_role, hproper.enabled, fun groups hgroups => ?_⟩
      by_cases hall : s.tenant = "all"
      · exact group_mem_of_all hd hproper hall hgroups
      · have hselected := mem_selected hd.selected
        rw [if_pos hall] at hselected
        exact hselected ▸ hproper.tenant hall groups hgroups

/-! ## Requests -/

variable {me : CurrentUser}

theorem mayTouch_iff :
    mayTouch w.users me s = true ↔
      (isAdmin me.role = true ∨ s.createdBy = me.sub) ∨ Inside (w.users.scopeOf me) s.tenant := by
  rw [mayTouch, Bool.or_eq_true, Bool.or_eq_true, decide_eq_true_iff]
  refine or_congr_right ?_
  cases hscope : w.users.scopeOf me with
  | none => exact iff_of_true rfl fun groups h => absurd h (by simp)
  | some scope => simp [Inside]

variable {tenant : String}

theorem inside_of_checkTenant
    (h : checkTenant w.users me tenant = none) (hadmin : isAdmin me.role = false) :
    Inside (w.users.scopeOf me) tenant := by
  intro groups hgroups
  rw [checkTenant, hgroups] at h
  simp [hadmin] at h
  exact h.2

theorem mem_getSchedules :
    s ∈ getSchedules w.users w.schedules me ↔ s ∈ w.schedules.rows ∧
      ((isAdmin me.role = true ∨ s.createdBy = me.sub) ∨ Inside (w.users.scopeOf me) s.tenant) := by
  rw [getSchedules]
  cases hscope : w.users.scopeOf me with
  | none =>
    have hinside : Inside none s.tenant := fun groups h => absurd h (by simp)
    simp [hinside]
  | some scope =>
    cases hadmin : isAdmin me.role with
    | true => simp
    | false => simp [Inside, List.mem_filter]

theorem within_list_iff (me : CurrentUser) :
    Within env w own (.list me) ↔ Proper env w own (.list me) := by
  constructor
  · intro h s hs hreached
    exact h s (mem_getSchedules.mpr ⟨hs, Or.inl hreached⟩)
  · intro h s hs
    obtain ⟨hs, hreached⟩ := mem_getSchedules.mp hs
    exact hreached.elim (h s hs) Or.inr

theorem properName_iff (h : checkTenant w.users me tenant = none) :
    ProperName w me tenant ↔ Inside (w.users.scopeOf me) tenant := by
  constructor
  · intro hproper
    cases hadmin : isAdmin me.role with
    | true => exact hproper hadmin
    | false => exact inside_of_checkTenant h hadmin
  · exact fun hinside _ => hinside

theorem checkTenant_of_admin (h : isAdmin me.role) : checkTenant w.users me tenant = none :=
  if_neg fun hrefused => hrefused.1 h

theorem exists_createSchedule_iff {p : Payload} :
    (∃ t, createSchedule w.users w.inventory w.now w.schedules me p = .ok t) ↔
      PyText.strip p.name ≠ "" ∧ PyText.strip p.tenant ≠ "" ∧
        checkTenant w.users me (PyText.strip p.tenant) = none ∧
        checkDevices w.users w.inventory me (PyText.strip p.tenant) (wantedIps p.devices) =
          none := by
  rw [createSchedule]
  dsimp only
  by_cases hname : PyText.strip p.name = ""
  · simp [hname]
  · by_cases htenant : PyText.strip p.tenant = ""
    · simp [hname, htenant]
    · cases hcheck : checkTenant w.users me (PyText.strip p.tenant) with
      | some e => simp [hname, htenant]
      | none =>
        cases hdevices : checkDevices w.users w.inventory me (PyText.strip p.tenant)
            (wantedIps p.devices) with
        | some e => simp [hname, htenant]
        | none => simp [hname, htenant]

theorem within_create_iff (me : CurrentUser) (p : Payload) :
    Within env w own (.create me p) ↔ Proper env w own (.create me p) := by
  constructor
  · intro h hname htenant hdevices hadmin
    obtain ⟨t, ht⟩ := exists_createSchedule_iff.mpr
      ⟨hname, htenant, checkTenant_of_admin hadmin, hdevices⟩
    exact h t ht
  · intro h t ht
    obtain ⟨hname, htenant, hcheck, hdevices⟩ := exists_createSchedule_iff.mp ⟨t, ht⟩
    exact (properName_iff hcheck).mp (h hname htenant hdevices)

theorem exists_updateSchedule_iff {id : ℕ} {p : Payload} (hs : w.schedules.get id = some s) :
    (∃ t, updateSchedule w.users w.inventory w.now w.schedules id me p = .ok t) ↔
      mayTouch w.users me s = true ∧ checkTenant w.users me (PyText.strip p.tenant) = none ∧
        checkDevices w.users w.inventory me (PyText.strip p.tenant) (wantedIps p.devices) =
          none := by
  rw [updateSchedule, hs]
  dsimp only
  cases htouch : mayTouch w.users me s with
  | false => simp
  | true =>
    cases hcheck : checkTenant w.users me (PyText.strip p.tenant) with
    | some e => simp
    | none =>
      cases hdevices : checkDevices w.users w.inventory me (PyText.strip p.tenant)
          (wantedIps p.devices) with
      | some e => simp
      | none => simp

theorem within_update_iff (me : CurrentUser) (id : ℕ) (p : Payload) :
    Within env w own (.update me id p) ↔ Proper env w own (.update me id p) := by
  constructor
  · intro h s hs hcheck hdevices
    refine ⟨fun hreached => ?_, fun hadmin => ?_⟩
    · obtain ⟨t, ht⟩ := (exists_updateSchedule_iff hs).mpr
        ⟨mayTouch_iff.mpr (Or.inl hreached), hcheck, hdevices⟩
      exact (h s t hs ht).1
    · obtain ⟨t, ht⟩ := (exists_updateSchedule_iff hs).mpr
        ⟨mayTouch_iff.mpr (Or.inl (Or.inl hadmin)), hcheck, hdevices⟩
      exact (h s t hs ht).2
  · intro h s t hs ht
    obtain ⟨htouch, hcheck, hdevices⟩ := (exists_updateSchedule_iff hs).mp ⟨t, ht⟩
    obtain ⟨haccess, hname⟩ := h s hs hcheck hdevices
    exact ⟨(mayTouch_iff.mp htouch).elim haccess Or.inr, (properName_iff hcheck).mp hname⟩

theorem within_delete_iff (me : CurrentUser) (id : ℕ) :
    Within env w own (.delete me id) ↔ Proper env w own (.delete me id) := by
  constructor
  · intro h s hs hreached
    have htouch : mayTouch w.users me s = true := mayTouch_iff.mpr (Or.inl hreached)
    exact h s _ hs (by rw [deleteSchedule, hs]; exact if_pos htouch)
  · intro h s t hs ht
    rw [deleteSchedule, hs] at ht
    dsimp only at ht
    split at ht
    · next htouch => exact (mayTouch_iff.mp htouch).elim (h s hs) Or.inr
    · simp at ht

/-- **What is done with a schedule stays within the authority of its user** if and only if it is
proper. -/
theorem within_iff_proper (env : Surroundings) (w : World) (own : Bool) (use : Use) :
    Within env w own use ↔ Proper env w own use := by
  cases use with
  | execute id => exact within_execute_iff id
  | list me => exact within_list_iff me
  | create me p => exact within_create_iff me p
  | update me id p => exact within_update_iff me id p
  | delete me id => exact within_delete_iff me id

/-! ## Guarded uses -/

/-- The creator of a schedule has an account that is not disabled; it is no administrator limited to
groups; and the tenant of the schedule, if it names one, is inside its groups. -/
structure GuardedCreator (users : Store) (s : Schedule) : Prop where
  exists_role : ∃ role, users.getRole s.createdBy = some role
  enabled : users.isDisabled s.createdBy = false
  admin : users.getRole s.createdBy = some .admin → groupsOf users s.createdBy = none
  tenant : s.tenant ≠ "all" → Inside (groupsOf users s.createdBy) s.tenant

/-- The creator of a schedule that is executed is guarded, and who else uses one is no administrator
limited to groups. -/
def Guarded (w : World) : Use → Prop
  | .execute id => ∀ s, w.schedules.get id = some s → GuardedCreator w.users s
  | .list me => isAdmin me.role = true → w.users.scopeOf me = none
  | .create me _ => isAdmin me.role = true → w.users.scopeOf me = none
  | .update me _ _ => isAdmin me.role = true → w.users.scopeOf me = none
  | .delete me _ => isAdmin me.role = true → w.users.scopeOf me = none

theorem properAccess_of_unlimited
    (h : isAdmin me.role = true → w.users.scopeOf me = none) : ProperAccess w true me s := by
  rintro (hadmin | hown)
  · exact Or.inr fun groups hgroups => absurd ((h hadmin).symm.trans hgroups) (by simp)
  · exact Or.inl ⟨rfl, hown⟩

theorem properName_of_unlimited
    (h : isAdmin me.role = true → w.users.scopeOf me = none) : ProperName w me tenant :=
  fun hadmin groups hgroups => absurd ((h hadmin).symm.trans hgroups) (by simp)

/-- A device of a group, with an address. -/
def hostAt (ip group : String) : Host :=
  ⟨ip, "cisco", "", "", "", "", group, "", "", "", "", "", "", ""⟩

def nightly (createdBy tenant : String) : Schedule :=
  ⟨1, "nightly", true, tenant, [], 360, createdBy, 0, none, 0, "idle", none⟩

/-- Nothing is excepted, and every probe is direct. -/
def plainSurroundings : Surroundings where
  telemetry _ := true
  isManual _ := false
  isAgentProbe _ := false
  pending _ := false

/-- A schedule of an operator, whose account may be disabled. -/
def office (groups : List String) (disabled : Bool) : World where
  users := ⟨[("carlo", ⟨"", some .operator, groups, "", [], disabled, false, false, false, 0⟩)],
    List.nodup_singleton "carlo"⟩
  inventory := [hostAt "192.0.2.1" "rome"]
  schedules := ⟨[nightly "carlo" "rome"], 2⟩
  now := 0
  busy := false

end SentinelNet.Triage
