import SentinelNet.Users.Checks

/-!
# The perimeter of an administrator

An administrator may be limited to some tenants and to some tabs, and manages accounts of a lower
rank only.  Whatever it asks for, the accounts that it creates or changes stay within its own
tenants, and within its own tabs as far as it is the one who gives the tabs.

* `confined_call`: every request is confined.
* `named_groups_kept`: groups of which the inventory has one restrict the account.
* `admin_perimeter`: this in every sequence of requests.
-/

namespace SentinelNet.Users

open Interleaving
open Sessions (Role isAdmin)

/-! ## Requests -/

/-- A request of the user administration. -/
inductive Management where
  | create (c : Creation)
  | role (username new : String)
  | groups (username : String) (groups allGroups : List String)
  | tabs (username : String) (allowedTabs : List String)
  | email (username email : String)
  | approve (username : String)
  | disable (username : String) (disabled : Bool)
  | delete (username : String)
  | sendReset (username : String)

def Management.program (t : Session) : Management → Program
  | .create c => createUserEp t c
  | .role username new => setUserRoleEp t username new
  | .groups username named allGroups => setUserGroupsEp t username named allGroups
  | .tabs username given => setUserTabsEp t username given
  | .email username address => setUserEmail t username address
  | .approve username => approveUser t username
  | .disable username disabled => disableUserEp t username disabled
  | .delete username => deleteUserEp t username
  | .sendReset username => adminSendReset t username

/-- A request with a session of an account. -/
structure Call where
  sep : ℕ
  ro : Bool
  request : Management

/-- The accounts after a request of an account. -/
def Call.run (actor : String) (c : Call) (s : Store) : Store :=
  (c.request.program ⟨actor, c.sep, c.ro⟩).run s

/-! ## Tabs -/

def Record.effectiveTabs (r : Record) : Option (List String) :=
  if r.roleOf = .superAdmin then none else grantedTabs r.allowedTabs

variable {r : Record}

theorem Store.effectiveTabs_eq {s : Store} {username : String}
    (h : s.user username = some r) : s.effectiveTabs username = r.effectiveTabs := by
  rw [Store.effectiveTabs, Store.getRole, Store.getAllowedTabs, h, Record.effectiveTabs]
  simp only [Option.map_some, Option.some.injEq, Option.getD_some]

theorem Store.effectiveTabs_congr {s s' : Store} {username : String}
    (h : s'.user username = s.user username) :
    s'.effectiveTabs username = s.effectiveTabs username := by
  rw [Store.effectiveTabs, Store.getRole, Store.getAllowedTabs, h]
  rfl

theorem tabAlias_tabAlias (t : String) : tabAlias (tabAlias t) = tabAlias t := by
  rw [tabAlias.eq_def t]
  split
  · rfl
  · rfl
  · rfl
  · rfl
  · rw [tabAlias.eq_def t]
    split <;> simp_all

theorem subtabGrants_closed {t t' : String} (h : t' ∈ subtabGrants t) :
    tabAlias t' = t' ∧ subtabGrants t' = [] := by
  rw [subtabGrants.eq_def] at h
  split at h
  · obtain rfl := List.mem_singleton.mp h
    exact ⟨rfl, rfl⟩
  · obtain rfl := List.mem_singleton.mp h
    exact ⟨rfl, rfl⟩
  · obtain rfl := List.mem_singleton.mp h
    exact ⟨rfl, rfl⟩
  · cases h

variable {raw tabs : List String}

theorem mem_grantedTabs (h : grantedTabs raw = some tabs) {t : String} :
    t ∈ tabs ↔ (∃ a ∈ raw, t = tabAlias a ∨ t ∈ subtabGrants (tabAlias a)) ∨ t = "tab-home" := by
  rw [grantedTabs] at h
  split at h
  · simp at h
  · rw [← Option.some.inj h]
    simp only [alwaysGrantedTabs, List.mem_append, List.mem_map, List.mem_flatMap,
      List.mem_singleton, exists_exists_and_eq_and]
    refine or_congr_left ⟨?_, ?_⟩
    · rintro (⟨a, ha, rfl⟩ | ⟨a, ha, ht⟩)
      · exact ⟨a, ha, Or.inl rfl⟩
      · exact ⟨a, ha, Or.inr ht⟩
    · rintro ⟨a, ha, rfl | ht⟩
      · exact Or.inl ⟨a, ha, rfl⟩
      · exact Or.inr ⟨a, ha, ht⟩

theorem grantedTabs_closed (h : grantedTabs raw = some tabs) {t : String}
    (ht : t ∈ tabs) : tabAlias t = t ∧ ∀ t' ∈ subtabGrants t, t' ∈ tabs := by
  rcases (mem_grantedTabs h).mp ht with ⟨a, ha, rfl | hgrant⟩ | rfl
  · exact ⟨tabAlias_tabAlias a, fun t' ht' => (mem_grantedTabs h).mpr (Or.inl ⟨a, ha, Or.inr ht'⟩)⟩
  · obtain ⟨halias, hgrants⟩ := subtabGrants_closed hgrant
    exact ⟨halias, fun t' ht' => absurd (hgrants ▸ ht') List.not_mem_nil⟩
  · exact ⟨rfl, fun t' ht' => nomatch ht'⟩

theorem grantedTabs_subset {given : List String} (h : grantedTabs raw = some tabs)
    (hne : given ≠ []) (hgiven : ∀ t ∈ given, t ≠ "tab-home" → tabAlias t ∈ tabs) :
    ∃ granted, grantedTabs given = some granted ∧ ∀ t ∈ granted, t ∈ tabs := by
  have hhome : "tab-home" ∈ tabs := (mem_grantedTabs h).mpr (Or.inr rfl)
  have halias (a : String) (ha : a ∈ given) : tabAlias a ∈ tabs := by
    by_cases hne : a = "tab-home"
    · rw [hne]
      exact hhome
    · exact hgiven a ha hne
  obtain ⟨granted, hgranted⟩ : ∃ granted, grantedTabs given = some granted :=
    ⟨_, if_neg hne⟩
  refine ⟨granted, hgranted, fun t ht => ?_⟩
  rcases (mem_grantedTabs hgranted).mp ht with ⟨a, ha, rfl | hgrant⟩ | rfl
  · exact halias a ha
  · exact (grantedTabs_closed h (halias a ha)).2 t hgrant
  · exact hhome

/-! ## Limits -/

structure SameRights (a r : Record) : Prop where
  role : r.roleOf = a.roleOf
  groups : r.groups = a.groups
  tabs : r.allowedTabs = a.allowedTabs

/-- An account below administrators, with the groups of one or fewer. -/
structure Below (a r : Record) : Prop where
  role : rank r.roleOf < rank .admin
  groups : a.groups ≠ [] → r.groups ≠ [] ∧ ∀ g ∈ r.groups, g ∈ a.groups

/-- An account with the tabs of an administrator or fewer. -/
def TabsBelow (a r : Record) : Prop :=
  ∀ tabs, a.effectiveTabs = some tabs →
    ∃ granted, r.effectiveTabs = some granted ∧ ∀ t ∈ granted, t ∈ tabs

/-- What a request of an administrator may do: its own account keeps its rights, and every other
account that was changed is below it, with its tabs as they were or within its own ones. -/
structure Confined (actor : String) (a : Record) (s s' : Store) : Prop where
  self : ∀ r, s'.user actor = some r → SameRights a r
  others : ∀ u r, u ≠ actor → s'.user u = some r → s.user u = some r ∨
    Below a r ∧ ((s.user u).map Record.allowedTabs = some r.allowedTabs ∨ TabsBelow a r)

variable {actor username : String} {a : Record} {s : Store}

theorem SameRights.effectiveTabs (h : SameRights a r) : r.effectiveTabs = a.effectiveTabs := by
  rw [Record.effectiveTabs, h.role, h.tabs, Record.effectiveTabs]

theorem Below.effectiveTabs (h : Below a r) : r.effectiveTabs = grantedTabs r.allowedTabs := by
  have hrole := h.role
  refine if_neg fun heq => ?_
  rw [heq] at hrole
  exact absurd hrole (by decide)

theorem TabsBelow.congr {r' : Record} (h : TabsBelow a r) (hr : Below a r) (hr' : Below a r')
    (htabs : r'.allowedTabs = r.allowedTabs) : TabsBelow a r' := by
  intro tabs ha
  rw [hr'.effectiveTabs, htabs, ← hr.effectiveTabs]
  exact h tabs ha

theorem Confined.trans {s' s'' : Store} (h : Confined actor a s s') (h' : Confined actor a s' s'') :
    Confined actor a s s'' where
  self := h'.self
  others u r hu hr := by
    rcases h'.others u r hu hr with hr' | ⟨hbelow, htabs | htabs⟩
    · exact h.others u r hu hr'
    · obtain ⟨r₁, hr₁, hsame⟩ := Option.map_eq_some_iff.mp htabs
      refine Or.inr ⟨hbelow, ?_⟩
      rcases h.others u r₁ hu hr₁ with hr₀ | ⟨hbelow₁, htabs₁ | htabs₁⟩
      · exact Or.inl (by rw [hr₀, Option.map_some, hsame])
      · exact Or.inl (htabs₁.trans (by rw [hsame]))
      · exact Or.inr (htabs₁.congr hbelow₁ hbelow hsame.symm)
    · exact Or.inr ⟨hbelow, Or.inr htabs⟩

section Writes

variable (ha : ∀ r, s.user actor = some r → SameRights a r)
include ha

theorem confined_refl : Confined actor a s s where
  self := ha
  others _ _ _ hr := Or.inl hr

theorem confined_update {f : Record → Record} (hself : username = actor → ∀ r, SameRights r (f r))
    (hother : username ≠ actor → ∀ r, s.user username = some r →
      Below a (f r) ∧ ((f r).allowedTabs = r.allowedTabs ∨ TabsBelow a (f r))) :
    Confined actor a s (s.update username f) where
  self r hr := by
    rw [Store.user_update] at hr
    split at hr
    · next heq =>
      obtain ⟨r₀, hr₀, rfl⟩ := Option.map_eq_some_iff.mp hr
      have hkept := hself heq r₀
      have hbefore := ha r₀ hr₀
      exact ⟨hkept.role.trans hbefore.role, hkept.groups.trans hbefore.groups,
        hkept.tabs.trans hbefore.tabs⟩
    · exact ha r hr
  others u r hu hr := by
    rw [Store.user_update] at hr
    split at hr
    · next heq =>
      subst heq
      obtain ⟨r₀, hr₀, rfl⟩ := Option.map_eq_some_iff.mp hr
      obtain ⟨hbelow, htabs⟩ := hother hu r₀ hr₀
      refine Or.inr ⟨hbelow, htabs.imp_left fun h => ?_⟩
      rw [hr₀, Option.map_some, h]
    · exact Or.inl hr

theorem confined_deleteUser : Confined actor a s (s.deleteUser username) where
  self r hr := by
    rw [Store.user_deleteUser] at hr
    split at hr
    · simp at hr
    · exact ha r hr
  others u r _ hr := by
    rw [Store.user_deleteUser] at hr
    split at hr
    · simp at hr
    · exact Or.inl hr

end Writes

/-! ## The administrator -/

/-- A caller with the rights of an administrator. -/
structure Caller (s : Store) (actor : String) (a : Record) (me : CurrentUser) : Prop where
  sub : me.sub = actor
  role : me.role = .admin
  record : ∃ r, s.user actor = some r ∧ SameRights a r
  tab : ∀ tabs, a.effectiveTabs = some tabs → "tab-users" ∈ tabs

variable {me : CurrentUser} {sep : ℕ} {ro : Bool}

theorem Admitted.caller (hme : Admitted s ⟨actor, sep, ro⟩ me) (hadmin : isAdmin me.role)
    (ha : ∀ r, s.user actor = some r → SameRights a r) (hrole : a.roleOf = .admin) :
    Caller s actor a me := by
  obtain ⟨r, hr, hrank⟩ := Option.map_eq_some_iff.mp (hme.getRole hadmin)
  have hsame := ha r hr
  refine ⟨hme.sub, ?_, ⟨r, hr, hsame⟩, fun tabs htabs => ?_⟩
  · rw [← hrank, hsame.role, hrole]
  · have htab := hme.tab
    rw [hme.sub, Store.effectiveTabs_eq hr, hsame.effectiveTabs, htabs] at htab
    simpa using htab

theorem Caller.scopeOf (hme : Caller s actor a me) (hgroups : a.groups ≠ []) :
    s.scopeOf me = some a.groups := by
  obtain ⟨r, hr, hsame⟩ := hme.record
  have hmine : s.getUserGroups me.sub = a.groups := by
    rw [hme.sub, Store.getUserGroups, hr, Option.map_some, Option.getD_some, hsame.groups]
  rw [Store.scopeOf, hmine, hme.role, if_neg]
  exact not_or.mpr ⟨by decide, hgroups⟩

theorem Caller.effectiveTabs (hme : Caller s actor a me) :
    s.effectiveTabs me.sub = a.effectiveTabs := by
  obtain ⟨r, hr, hsame⟩ := hme.record
  rw [hme.sub, Store.effectiveTabs_eq hr, hsame.effectiveTabs]

theorem rank_lt_of_admin {role : Role} (h : canManage .admin role) :
    rank role < rank .admin := by
  simpa [canManage] using h

theorem Manageable.below {allowSelf : Bool}
    (h : Manageable s me username allowSelf r) (hme : Caller s actor a me)
    (hne : username ≠ actor) : Below a r where
  role := by
    have hmanage := h.rank.resolve_left fun hself => hne (hself.1.trans hme.sub)
    rw [hme.role] at hmanage
    exact rank_lt_of_admin hmanage
  groups hgroups := by
    have hvisible := h.visible
    have htarget : s.getUserGroups username = r.groups := by
      rw [Store.getUserGroups, h.record, Option.map_some, Option.getD_some]
    have hself : ¬ username = me.sub := fun heq => hne (heq.trans hme.sub)
    rw [Store.visibleTo, hme.scopeOf hgroups] at hvisible
    simpa [hself, htarget] using hvisible

theorem Manageable.ne_actor (h : Manageable s me username false r)
    (hme : Caller s actor a me) (hrole : a.roleOf = .admin) : username ≠ actor := by
  rintro rfl
  obtain ⟨r', hr', hsame⟩ := hme.record
  obtain rfl := Option.some.inj (h.record.symm.trans hr')
  have hmanage := h.rank.resolve_left fun hself => Bool.false_ne_true hself.2
  rw [hme.role, hsame.role, hrole] at hmanage
  exact absurd hmanage (by decide)

theorem confined_managed (ha : ∀ r, s.user actor = some r → SameRights a r)
    (hrole : a.roleOf = .admin) (hme : Caller s actor a me)
    (h : Manageable s me username false r) {f : Record → Record}
    (hf : Below a r → Below a (f r) ∧ ((f r).allowedTabs = r.allowedTabs ∨ TabsBelow a (f r))) :
    Confined actor a s (s.update username f) := by
  have hne := h.ne_actor hme hrole
  refine confined_update ha (fun heq => absurd heq hne) fun _ r' hr' => ?_
  obtain rfl := Option.some.inj (h.record.symm.trans hr')
  exact hf (h.below hme hne)

theorem grantedTabs_of_admin (hrole : a.roleOf = .admin) (htabs : a.effectiveTabs = some tabs) :
    grantedTabs a.allowedTabs = some tabs := by
  rw [← htabs, Record.effectiveTabs, if_neg]
  rw [hrole]
  decide

theorem Caller.tabsBelow_withoutHome (hme : Caller s actor a me) (hrole : a.roleOf = .admin)
    (hr : Below a r) (htabs : a.effectiveTabs = some tabs)
    (hgiven : r.allowedTabs = withoutHome tabs) : TabsBelow a r := by
  intro tabs' htabs'
  obtain rfl := Option.some.inj (htabs.symm.trans htabs')
  rw [hr.effectiveTabs, hgiven]
  have hgranted := grantedTabs_of_admin hrole htabs
  refine grantedTabs_subset hgranted ?_ fun t ht _ => ?_
  · exact List.ne_nil_of_mem (mem_withoutHome.mpr ⟨hme.tab tabs htabs, by decide⟩)
  · have hmem := (mem_withoutHome.mp ht).1
    rw [(grantedTabs_closed hgranted hmem).1]
    exact hmem

/-! ## Creating an account -/

/-- What `create_user_ep` leaves behind. -/
structure Created (s s' : Store) (t : Session) (c : Creation) (me : CurrentUser) : Prop where
  admitted : Admitted s t me
  admin : isAdmin me.role = true
  scope : ∀ scope, s.scopeOf me = some scope → validGroups c.allGroups c.groups ≠ [] ∧
    ∀ g ∈ validGroups c.allGroups c.groups, g ∈ scope
  new : s.user (PyText.strip c.username) = none
  others : ∀ u, u ≠ PyText.strip c.username → s'.user u = s.user u
  account : ∀ r, s'.user (PyText.strip c.username) = some r → canAssign me.role r.roleOf = true ∧
    r.groups = validGroups c.allGroups c.groups ∧
      r.allowedTabs = ((s.effectiveTabs me.sub).map withoutHome).getD []

variable (username) in
theorem user_mailSetupLink (setupLink sent : Bool) (s : Store) :
    (∀ u, u ≠ username → ((mailSetupLink username setupLink sent).run s).user u = s.user u) ∧
      ∀ r, ((mailSetupLink username setupLink sent).run s).user username = some r →
        ∃ r₀, s.user username = some r₀ ∧ SameRights r₀ r := by
  have hmark (u : String) (hu : u ≠ username) :
      (s.markAwaitingPassword username).user u = s.user u := by
    rw [Store.markAwaitingPassword, Store.user_update, if_neg (Ne.symm hu)]
  rw [mailSetupLink]
  split
  · rw [Prog.run_write]
    split
    · refine ⟨hmark, fun r hr => ?_⟩
      rw [Prog.run_done, Store.markAwaitingPassword, Store.user_update, if_pos rfl] at hr
      obtain ⟨r₀, hr₀, rfl⟩ := Option.map_eq_some_iff.mp hr
      exact ⟨r₀, hr₀, rfl, rfl, rfl⟩
    · rw [Prog.run_last]
      refine ⟨fun u hu => ?_, fun r hr => ?_⟩
      · rw [Store.user_deleteUser, if_neg (Ne.symm hu), hmark u hu]
      · rw [Store.user_deleteUser, if_pos rfl] at hr
        simp at hr
  · exact ⟨fun _ _ => rfl, fun r hr => ⟨r, hr, rfl, rfl, rfl⟩⟩

variable (me) in
theorem run_openAccount (setupLink sent : Bool) (hr : s.user username = some r) :
    (∀ u, u ≠ username →
      ((openAccount me username setupLink sent).run s).user u = s.user u) ∧
      ∀ r', ((openAccount me username setupLink sent).run s).user username = some r' →
        r'.roleOf = r.roleOf ∧ r'.groups = r.groups ∧
          r'.allowedTabs = ((s.effectiveTabs me.sub).map withoutHome).getD r.allowedTabs := by
  rw [openAccount, run_effectiveTabs]
  split
  · next hnone =>
    obtain ⟨hothers, haccount⟩ := user_mailSetupLink username setupLink sent s
    refine ⟨hothers, fun r' hr' => ?_⟩
    obtain ⟨r₀, hr₀, hsame⟩ := haccount r' hr'
    obtain rfl := Option.some.inj (hr.symm.trans hr₀)
    exact ⟨hsame.role, hsame.groups, by rw [hnone]; exact hsame.tabs⟩
  · next tabs htabs =>
    rw [Prog.run_write]
    obtain ⟨hothers, haccount⟩ := user_mailSetupLink username setupLink sent
      (s.setAllowedTabs username (withoutHome tabs))
    refine ⟨fun u hu => ?_, fun r' hr' => ?_⟩
    · rw [hothers u hu, Store.setAllowedTabs, Store.user_update, if_neg (Ne.symm hu)]
    · obtain ⟨r₀, hr₀, hsame⟩ := haccount r' hr'
      rw [Store.setAllowedTabs, Store.user_update, if_pos rfl, hr, Option.map_some] at hr₀
      obtain rfl := Option.some.inj hr₀
      exact ⟨hsame.role, hsame.groups, by rw [htabs]; exact hsame.tabs⟩

theorem run_createUserEp (t : Session) (c : Creation) (s : Store) :
    (createUserEp t c).run s = s ∨
      ∃ me, Created s ((createUserEp t c).run s) t c me := by
  rw [createUserEp]
  rcases run_adminRoute t _ s with hend | ⟨me, hme, hadmin, hrun⟩
  · exact Or.inl hend
  · rw [hrun]
    split
    · exact Or.inl rfl
    · next role hrole =>
      dsimp only
      split
      · next hchecked =>
        rcases run_assertGroupsWithinScope s me
          (validGroups c.allGroups c.groups) _ with hend | ⟨hscope, hrun⟩
        · exact Or.inl hend
        · rw [hrun, Prog.run_write]
          split
          · next hsome =>
            obtain ⟨r, hr⟩ := Option.isSome_iff_exists.mp hsome
            refine Or.inl ?_
            rw [Prog.run_done, Store.createUser, hr]
          · next hnone =>
            have hnew : s.user (PyText.strip c.username) = none := by simpa using hnone
            have huser (u : String) : (s.createUser (PyText.strip c.username) c.hashed role
                (validGroups c.allGroups c.groups) (!decide (c.password = ""))
                (PyText.strip c.email) false).user u = _ :=
              Store.user_createUser ..
            -- The caller has an account, so the new one is another one.
            have hne : me.sub ≠ PyText.strip c.username := by
              intro heq
              have hmine := hme.getRole hadmin
              rw [← hme.sub, heq, Store.getRole, hnew] at hmine
              simp at hmine
            have htabs := Store.effectiveTabs_congr ((huser me.sub).trans
              (if_neg fun h => hne h.1.symm))
            obtain ⟨hothers, haccount⟩ := run_openAccount me (decide (c.password = ""))
              c.sent ((huser _).trans (if_pos ⟨rfl, hnew⟩))
            refine Or.inr ⟨me, hme, hadmin, hscope, hnew, fun u hu => ?_, fun r hr => ?_⟩
            · exact (hothers u hu).trans ((huser u).trans (if_neg fun h => hu h.1.symm))
            · obtain ⟨hrole', hgroups, hallowed⟩ := haccount r hr
              refine ⟨?_, hgroups, ?_⟩
              · rw [hrole']
                exact hchecked.1
              · rw [hallowed, htabs]
      · exact Or.inl rfl

section Requests

variable (ha : ∀ r, s.user actor = some r → SameRights a r)

include ha in
theorem confined_assertCanManage {new : Option Role} {allowSelf : Bool} {next : Program}
    (h : ∀ r, Manageable s me username allowSelf r → new.all (canAssign me.role ·) = true →
      Confined actor a s (next.run s)) :
    Confined actor a s ((assertCanManage me username new allowSelf next).run s) := by
  rcases run_assertCanManage s me username new allowSelf next with
    hend | ⟨⟨r, hr⟩, hassign, hrun⟩
  · rw [hend]
    exact confined_refl ha
  · rw [hrun]
    exact h r hr hassign

include ha in
theorem confined_unlessLast {f : Store → Store} (h : Confined actor a s (f s)) :
    Confined actor a s ((isLastActiveSuperAdmin username fun last =>
      if last then .done else .last f).run s) := by
  rcases run_unlessLast (s := s) username f with hend | hend
  · rw [hend]
    exact confined_refl ha
  · rw [hend]
    exact h

include ha in
theorem confined_delete (username : String) :
    Confined actor a s ((deleteUserEp ⟨actor, sep, ro⟩ username).run s) := by
  rw [deleteUserEp]
  rcases run_usersRoute ⟨actor, sep, ro⟩ _ s with hend | ⟨me, -, hrun⟩
  · rw [hend]
    exact confined_refl ha
  · rw [hrun]
    split
    · exact confined_refl ha
    · refine confined_assertCanManage ha fun _ _ _ => ?_
      exact confined_unlessLast ha (confined_deleteUser ha)

variable (hrole : a.roleOf = .admin)
include ha hrole

theorem confined_create (c : Creation) :
    Confined actor a s ((createUserEp ⟨actor, sep, ro⟩ c).run s) := by
  rcases run_createUserEp ⟨actor, sep, ro⟩ c s with hend | ⟨me, hcreated⟩
  · rw [hend]
    exact confined_refl ha
  · have hme := hcreated.admitted.caller hcreated.admin ha hrole
    have hne : actor ≠ PyText.strip c.username := by
      rintro rfl
      obtain ⟨r, hr, -⟩ := hme.record
      exact Option.some_ne_none r (hr.symm.trans hcreated.new)
    refine ⟨fun r hr => ha r ((hcreated.others actor hne).symm.trans hr), fun u r hu hr => ?_⟩
    by_cases hname : u = PyText.strip c.username
    · subst hname
      obtain ⟨hassign, hgroups, htabs⟩ := hcreated.account r hr
      have hbelow : Below a r := by
        refine ⟨?_, fun hmine => ?_⟩
        · rw [hme.role] at hassign
          exact rank_lt_of_admin hassign
        · rw [hgroups]
          exact hcreated.scope a.groups (hme.scopeOf hmine)
      refine Or.inr ⟨hbelow, Or.inr ?_⟩
      intro tabs hmine
      rw [hme.effectiveTabs, hmine] at htabs
      exact hme.tabsBelow_withoutHome hrole hbelow hmine htabs tabs hmine
    · exact Or.inl ((hcreated.others u hname).symm.trans hr)

/-! ## The other requests -/

theorem confined_adminRoute {next : CurrentUser → Program}
    (h : ∀ me, Caller s actor a me → Confined actor a s ((next me).run s)) :
    Confined actor a s ((adminRoute ⟨actor, sep, ro⟩ next).run s) := by
  rcases run_adminRoute ⟨actor, sep, ro⟩ next s with hend | ⟨me, hme, hadmin, hrun⟩
  · rw [hend]
    exact confined_refl ha
  · rw [hrun]
    exact h me (hme.caller hadmin ha hrole)

theorem confined_role (username new : String) :
    Confined actor a s ((setUserRoleEp ⟨actor, sep, ro⟩ username new).run s) := by
  rw [setUserRoleEp]
  refine confined_adminRoute ha hrole fun me hcaller => ?_
  split
  · exact confined_refl ha
  · next role _ =>
    refine confined_assertCanManage ha fun r hr hassign => ?_
    rw [Option.all_some, hcaller.role] at hassign
    have hset : Confined actor a s (s.setRole username role) :=
      confined_managed ha hrole hcaller hr fun hbelow =>
        ⟨⟨rank_lt_of_admin hassign, hbelow.groups⟩, Or.inl rfl⟩
    split
    · exact hset
    · exact confined_unlessLast ha hset

theorem confined_disable (username : String) (disabled : Bool) :
    Confined actor a s ((disableUserEp ⟨actor, sep, ro⟩ username disabled).run s) := by
  rw [disableUserEp]
  refine confined_adminRoute ha hrole fun me hcaller => ?_
  split
  · exact confined_refl ha
  · refine confined_assertCanManage ha fun r hr _ => ?_
    have hset (disabled : Bool) : Confined actor a s (s.setDisabled username disabled) :=
      confined_managed ha hrole hcaller hr fun hbelow =>
        ⟨⟨hbelow.role, hbelow.groups⟩, Or.inl rfl⟩
    split
    · exact confined_unlessLast ha (hset true)
    · exact hset false

omit ha hrole in
theorem run_setUserGroupsEp (t : Session) (username : String) (groups allGroups : List String)
    (s : Store) :
    (setUserGroupsEp t username groups allGroups).run s = s ∨
      ∃ me r, Admitted s t me ∧ isAdmin me.role = true ∧ Manageable s me username false r ∧
        (∀ scope, s.scopeOf me = some scope → validGroups allGroups groups ≠ [] ∧
          ∀ g ∈ validGroups allGroups groups, g ∈ scope) ∧
        (setUserGroupsEp t username groups allGroups).run s =
          s.setGroups username (validGroups allGroups groups) := by
  rw [setUserGroupsEp]
  rcases run_adminRoute t _ s with hend | ⟨me, hme, hadmin, hrun⟩
  · exact Or.inl hend
  · rw [hrun]
    rcases run_assertCanManage s me username none false _ with
      hend | ⟨⟨r, hr⟩, -, hrun⟩
    · exact Or.inl hend
    · rw [hrun]
      rcases run_assertGroupsWithinScope s me (validGroups allGroups groups) _ with
        hend | ⟨hscope, hrun⟩
      · exact Or.inl hend
      · exact Or.inr ⟨me, r, hme, hadmin, hr, hscope, hrun⟩

theorem confined_groups (username : String) (groups allGroups : List String) :
    Confined actor a s ((setUserGroupsEp ⟨actor, sep, ro⟩ username groups allGroups).run s) := by
  rcases run_setUserGroupsEp ⟨actor, sep, ro⟩ username groups allGroups s with
    hend | ⟨me, r, hme, hadmin, hr, hscope, hrun⟩
  · rw [hend]
    exact confined_refl ha
  · have hcaller := hme.caller hadmin ha hrole
    rw [hrun]
    refine confined_managed ha hrole hcaller hr fun hbelow => ⟨⟨hbelow.role, fun hmine => ?_⟩, ?_⟩
    · exact hscope a.groups (hcaller.scopeOf hmine)
    · exact Or.inl rfl

theorem confined_tabs (username : String) (given : List String) :
    Confined actor a s ((setUserTabsEp ⟨actor, sep, ro⟩ username given).run s) := by
  rw [setUserTabsEp]
  refine confined_adminRoute ha hrole fun me hcaller => ?_
  refine confined_assertCanManage ha fun r hr _ => ?_
  rcases run_assertTabsWithinGrant s me given _ with hend | ⟨hgrant, hrun⟩
  · rw [hend]
    exact confined_refl ha
  · rw [hrun]
    refine confined_managed ha hrole hcaller hr fun hbelow => ?_
    have hset : Below a { r with allowedTabs := given } := ⟨hbelow.role, hbelow.groups⟩
    refine ⟨hset, Or.inr fun tabs hmine => ?_⟩
    obtain ⟨hne, hmem⟩ := hgrant tabs (hcaller.effectiveTabs.trans hmine)
    have hgranted := grantedTabs_of_admin hrole hmine
    rw [hset.effectiveTabs]
    refine grantedTabs_subset hgranted (fun hnil => ?_) fun t ht hhome => ?_
    · subst hnil
      exact hne rfl
    · refine hmem (tabAlias t) (List.mem_map.mpr ⟨t, List.mem_filter.mpr ⟨ht, ?_⟩, rfl⟩)
      exact decide_eq_true hhome

theorem confined_approve (username : String) :
    Confined actor a s ((approveUser ⟨actor, sep, ro⟩ username).run s) := by
  rw [approveUser]
  refine confined_adminRoute ha hrole fun me hcaller => ?_
  refine confined_assertCanManage ha fun r hr _ => ?_
  have hne := hr.ne_actor hcaller hrole
  have hbelow := hr.below hcaller hne
  have happroved : Confined actor a s (s.approve username) :=
    confined_managed ha hrole hcaller hr fun hbelow => ⟨⟨hbelow.role, hbelow.groups⟩, Or.inl rfl⟩
  rw [Prog.run_write, run_effectiveTabs]
  split
  · exact happroved
  · next tabs htabs =>
    rw [run_effectiveTabs]
    split
    · -- The account had every tab, and gets those of the administrator.
      have hmine : (s.approve username).effectiveTabs me.sub = s.effectiveTabs me.sub := by
        refine Store.effectiveTabs_congr ?_
        rw [Store.approve, Store.user_update, if_neg fun h => hne (h.trans hcaller.sub)]
      rw [hmine, hcaller.effectiveTabs] at htabs
      refine happroved.trans (confined_update happroved.self (fun h => absurd h hne) ?_)
      intro _ r' hr'
      rw [Store.approve, Store.user_update, if_pos rfl, hr.record] at hr'
      obtain rfl := Option.some.inj hr'
      have hset : Below a { r with
          pendingApproval := false, allowedTabs := withoutHome tabs } :=
        ⟨hbelow.role, hbelow.groups⟩
      exact ⟨hset, Or.inr (hcaller.tabsBelow_withoutHome hrole hset htabs rfl)⟩
    · exact happroved

theorem confined_email (username email : String) :
    Confined actor a s ((setUserEmail ⟨actor, sep, ro⟩ username email).run s) := by
  rw [setUserEmail]
  refine confined_adminRoute ha hrole fun me hcaller => ?_
  refine confined_assertCanManage ha fun r hr _ => ?_
  dsimp only
  split
  · rw [Prog.run_last, Store.setEmail]
    generalize PyText.strip (PyText.strip email) = address
    refine confined_update ha (fun _ r => ⟨rfl, rfl, rfl⟩) fun hne r' hr' => ?_
    obtain rfl := Option.some.inj (hr.record.symm.trans hr')
    have hbelow := hr.below hcaller hne
    exact ⟨⟨hbelow.role, hbelow.groups⟩, Or.inl rfl⟩
  · exact confined_refl ha

/-- Every request of an administrator is confined. -/
theorem confined_call (c : Call) : Confined actor a s (c.run actor s) := by
  obtain ⟨sep, ro, request⟩ := c
  cases request with
  | create c => exact confined_create ha hrole c
  | role username new => exact confined_role ha hrole username new
  | groups username groups allGroups => exact confined_groups ha hrole username groups allGroups
  | tabs username allowedTabs => exact confined_tabs ha hrole username allowedTabs
  | email username email => exact confined_email ha hrole username email
  | approve username => exact confined_approve ha hrole username
  | disable username disabled => exact confined_disable ha hrole username disabled
  | delete username => exact confined_delete ha username
  | sendReset username =>
    rw [Call.run, Management.program, adminSendReset]
    refine confined_adminRoute ha hrole fun me _ => ?_
    exact confined_assertCanManage ha fun _ _ _ => confined_refl ha

end Requests

/-! ## Groups that are named -/

/-- The request is to give an account groups, of which the inventory has one. -/
def Management.NamesGroup : Management → Prop
  | .create c => validGroups c.allGroups c.groups ≠ []
  | .groups _ named allGroups => validGroups allGroups named ≠ []
  | _ => False

/-- An account that gets groups of which the inventory has one is restricted, whoever gives them. -/
theorem named_groups_kept (t : Session) {request : Management} (h : request.NamesGroup) {u : String}
    (hr : ((request.program t).run s).user u = some r) (hnew : s.user u ≠ some r) :
    r.groups ≠ [] := by
  cases request with
  | create c =>
    rcases run_createUserEp t c s with hend | ⟨me, hcreated⟩
    · exact absurd (hend ▸ hr) hnew
    · by_cases hname : u = PyText.strip c.username
      · subst hname
        rw [(hcreated.account r hr).2.1]
        exact h
      · exact absurd ((hcreated.others u hname).symm.trans hr) hnew
  | groups username groups allGroups =>
    rcases run_setUserGroupsEp t username groups allGroups s with
      hend | ⟨me, r₀, -, -, -, -, hrun⟩
    · exact absurd (hend ▸ hr) hnew
    · rw [Management.program, hrun, Store.setGroups, Store.user_update] at hr
      split at hr
      · obtain ⟨r₁, -, rfl⟩ := Option.map_eq_some_iff.mp hr
        exact h
      · exact absurd hr hnew
  | _ => exact h.elim

/-! ## Sequences of requests -/

/-- The accounts, those that were created or changed, and those of them that were created or given
tabs. -/
structure Watch where
  store : Store
  touched : String → Prop
  given : String → Prop

/-- No account was changed yet. -/
def Watch.start (s : Store) : Watch := ⟨s, fun _ => False, fun _ => False⟩

/-- The accounts after a request, and those that it changed. -/
def Watch.step (actor : String) (w : Watch) (c : Call) : Watch where
  store := c.run actor w.store
  touched u := w.touched u ∨ (c.run actor w.store).user u ≠ w.store.user u
  given u := w.given u ∨ ((c.run actor w.store).user u).map Record.allowedTabs ≠
    (w.store.user u).map Record.allowedTabs

/-- The perimeter of an administrator: its own account keeps its rights, and another account that it
created or changed is below it, with tabs within its own ones if it gave them, and as before if
not. -/
structure Perimeter (actor : String) (a : Record) (s : Store) (w : Watch) : Prop where
  self : ∀ r, w.store.user actor = some r → SameRights a r
  below : ∀ u r, u ≠ actor → w.touched u → w.store.user u = some r → Below a r
  tabs : ∀ u r, u ≠ actor → w.given u → w.store.user u = some r → TabsBelow a r
  kept : ∀ u r, ¬ w.given u → w.store.user u = some r →
    (s.user u).map Record.allowedTabs = some r.allowedTabs

/-- Accounts that were given tabs were changed. -/
def Watch.Sound (w : Watch) : Prop := ∀ u, w.given u → w.touched u

theorem Watch.Sound.step {w : Watch} (hw : w.Sound) (c : Call) : (w.step actor c).Sound := by
  rintro u (hgiven | hgiven)
  · exact Or.inl (hw u hgiven)
  · exact Or.inr fun h => hgiven (by rw [h])

theorem Perimeter.step {w : Watch} (hw : w.Sound) (h : Perimeter actor a s w)
    (hrole : a.roleOf = .admin) (c : Call) : Perimeter actor a s (w.step actor c) := by
  have hcall := confined_call h.self hrole c
  refine ⟨hcall.self, fun u r hu htouched hr => ?_, fun u r hu hgiven hr => ?_,
    fun u r hgiven hr => ?_⟩
  · rcases hcall.others u r hu hr with hsame | ⟨hbelow, -⟩
    · exact h.below u r hu (htouched.resolve_right fun hne => hne (hr.trans hsame.symm)) hsame
    · exact hbelow
  · rcases hcall.others u r hu hr with hsame | ⟨hbelow, hkept | htabs⟩
    · have hgiven := hgiven.resolve_right fun hne => hne (congrArg _ (hr.trans hsame.symm))
      exact h.tabs u r hu hgiven hsame
    · have hgiven : w.given u := by
        refine hgiven.resolve_right fun hne => hne ?_
        rw [hkept]
        exact congrArg _ hr
      obtain ⟨r₀, hr₀, hallowed⟩ := Option.map_eq_some_iff.mp hkept
      exact (h.tabs u r₀ hu hgiven hr₀).congr (h.below u r₀ hu (hw u hgiven) hr₀) hbelow
        hallowed.symm
    · exact htabs
  · obtain ⟨hgiven, hkept⟩ := not_or.mp hgiven
    rw [not_not, show (c.run actor w.store).user u = some r from hr, Option.map_some] at hkept
    obtain ⟨r₀, hr₀, hallowed⟩ := Option.map_eq_some_iff.mp hkept.symm
    exact (h.kept u r₀ hgiven hr₀).trans (by rw [hallowed])

theorem perimeter_start (ha : s.user actor = some a) : Perimeter actor a s (Watch.start s) where
  self r hr := by
    obtain rfl := Option.some.inj (ha.symm.trans hr)
    exact ⟨rfl, rfl, rfl⟩
  below _ _ _ htouched := htouched.elim
  tabs _ _ _ hgiven := hgiven.elim
  kept _ _ _ hr := congrArg _ hr

/-- **An administrator widens nothing**: after every sequence of its requests, its own account has
the rights that it had, and every other account that it created or changed is below it.  And no
account that is given groups, of which the inventory has one, is left without a group, whoever gives
them. -/
theorem admin_perimeter {actor : String} {a : Record} {s : Store} (ha : s.user actor = some a)
    (hrole : a.roleOf = .admin) (calls : List Call) :
    Perimeter actor a s (calls.foldl (Watch.step actor) (Watch.start s)) ∧
      ∀ (s : Store) (t : Session) (request : Management), request.NamesGroup →
        ∀ u r, ((request.program t).run s).user u = some r → s.user u ≠ some r → r.groups ≠ [] := by
  have hrun := List.foldlRecOn (motive := fun w => w.Sound ∧ Perimeter actor a s w) calls
    (Watch.step actor) ⟨fun _ hgiven => hgiven.elim, perimeter_start ha⟩
    fun w hw c _ => ⟨hw.1.step c, hw.2.step hw.1 hrole c⟩
  exact ⟨hrun.2, fun s t request h u r hr hnew => named_groups_kept t h hr hnew⟩

/-! ## An administrator with one tab -/

/-- An administrator with one tab, a viewer of one tenant, and a super administrator. -/
def office : Store :=
  ⟨[("anna", ⟨"", some .admin, [], "", ["tab-users"], false, false, false, false, 0⟩),
    ("vera", ⟨"", some .viewer, ["milan"], "", [], false, false, false, false, 0⟩),
    ("root", ⟨"", some .superAdmin, [], "", [], false, false, false, false, 0⟩)], by decide⟩

theorem admin_perimeter_office :
    Perimeter "anna" ⟨"", some .admin, [], "", ["tab-users"], false, false, false, false, 0⟩ office
      ([⟨0, false, .disable "vera" true⟩].foldl (Watch.step "anna") (Watch.start office)) :=
  (admin_perimeter (s := office) (by decide) rfl [⟨0, false, .disable "vera" true⟩]).1

/-- The administrator with one tab blocks a viewer, who has every tab before and after.  And groups
that the inventory does not have are dropped from a request, which leaves every tenant. -/
theorem wide_before_and_after :
    office.effectiveTabs "anna" = some ["tab-users", "tab-home"] ∧
      (Call.run "anna" ⟨0, false, .disable "vera" true⟩ office).user "vera" ≠
        office.user "vera" ∧
      (Call.run "anna" ⟨0, false, .disable "vera" true⟩ office).effectiveTabs "vera" = none ∧
      office.getUserGroups "vera" = ["milan"] ∧
      (Call.run "root" ⟨0, false, .groups "vera" ["rome"] ["milan"]⟩ office).getUserGroups
        "vera" = [] := by
  decide

end SentinelNet.Users
