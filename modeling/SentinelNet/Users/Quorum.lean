import SentinelNet.Users.Routes

/-!
# A super administrator remains

The routes that could take the last active super administrator away ask `is_last_active_super_admin`
first, and write later.  A request that is alone cannot take the last one away; of two requests that
overlap, each can rely on the administrator that the other takes away.

* `keeping_request`: one remains after a request during which no other one was taken away.
* `superAdmin_remains`: when one remains in a run.
* `demotions_cross`: two administrators who demote each other.
-/

namespace SentinelNet.Users

open Interleaving StepRuns
open Sessions (Role isAdmin)

/-! ## Reliance -/

/-- No active super administrator is taken away. -/
def keepsSuperAdmins (s s' : Store) : Bool :=
  s.activeSuperAdmins.all (· ∈ s'.activeSuperAdmins)

def HasSuperAdmin (s : Store) : Prop := s.activeSuperAdmins ≠ []

instance : DecidablePred HasSuperAdmin :=
  fun s => inferInstanceAs (Decidable (s.activeSuperAdmins ≠ []))

/-- There is another active super administrator. -/
def HasOther (username : String) (s : Store) : Prop := ∃ v ∈ s.activeSuperAdmins, v ≠ username

/-- A program after which a super administrator remains, if none is taken away during it. -/
abbrev Keeping (p : Program) (known : Store → Prop) : Prop :=
  p.Keeps (fun s s' => keepsSuperAdmins s s' = true) HasSuperAdmin known

variable {s s' : Store} {p : Program} {known : Store → Prop} {username : String}

theorem keepsSuperAdmins_iff :
    keepsSuperAdmins s s' = true ↔ ∀ v ∈ s.activeSuperAdmins, v ∈ s'.activeSuperAdmins := by
  rw [keepsSuperAdmins, List.all_eq_true]
  exact forall₂_congr fun v _ => decide_eq_true_iff

theorem keepsSuperAdmins_refl (s : Store) : keepsSuperAdmins s s = true :=
  keepsSuperAdmins_iff.mpr fun _ hv => hv

theorem keepsSuperAdmins_trans (s s' s'' : Store) (h : keepsSuperAdmins s s')
    (h' : keepsSuperAdmins s' s'') : keepsSuperAdmins s s'' = true :=
  keepsSuperAdmins_iff.mpr fun v hv =>
    keepsSuperAdmins_iff.mp h' v (keepsSuperAdmins_iff.mp h v hv)

theorem HasSuperAdmin.mono (hs : HasSuperAdmin s) (h : keepsSuperAdmins s s') :
    HasSuperAdmin s' := by
  obtain ⟨v, hv⟩ := List.exists_mem_of_ne_nil _ hs
  exact List.ne_nil_of_mem (keepsSuperAdmins_iff.mp h v hv)

theorem HasOther.mono (hs : HasOther username s) (h : keepsSuperAdmins s s') :
    HasOther username s' := by
  obtain ⟨v, hv, hne⟩ := hs
  exact ⟨v, keepsSuperAdmins_iff.mp h v hv, hne⟩

theorem hasOther_of_inactive (hs : HasSuperAdmin s)
    (h : (s.user username).any Record.isActiveSuperAdmin = false) : HasOther username s := by
  obtain ⟨v, hv⟩ := List.exists_mem_of_ne_nil _ hs
  refine ⟨v, hv, ?_⟩
  rintro rfl
  obtain ⟨r, hr, hactive⟩ := Store.mem_activeSuperAdmins.mp hv
  simp [hr, hactive] at h

theorem hasOther_of_count (h : ¬ s.countActiveSuperAdmins ≤ 1) : HasOther username s := by
  rw [Store.countActiveSuperAdmins_eq, not_le] at h
  by_contra hnone
  have hall : ∀ v ∈ s.activeSuperAdmins, v = username :=
    fun v hv => by_contra fun hne => hnone ⟨v, hv, hne⟩
  have hle : s.activeSuperAdmins.length ≤ [username].length :=
    (Store.nodup_activeSuperAdmins.subperm
      fun v hv => List.mem_singleton.mpr (hall v hv)).length_le
  exact absurd h (not_lt.mpr hle)

/-! ## Writes -/

theorem keepsSuperAdmins_update (f : Record → Record)
    (hf : ∀ r, r.isActiveSuperAdmin = true → (f r).isActiveSuperAdmin = true) :
    keepsSuperAdmins s (s.update username f) = true := by
  refine keepsSuperAdmins_iff.mpr fun v hv => ?_
  obtain ⟨r, hr, hactive⟩ := Store.mem_activeSuperAdmins.mp hv
  rw [Store.mem_activeSuperAdmins, Store.user_update]
  split
  · exact ⟨f r, by rw [hr, Option.map_some], hf r hactive⟩
  · exact ⟨r, hr, hactive⟩

theorem keepsSuperAdmins_createUser (hashed : String) (role : Role) (groups : List String)
    (mustChange : Bool) (email : String) (pending : Bool) :
    keepsSuperAdmins s (s.createUser username hashed role groups mustChange email pending) =
      true := by
  refine keepsSuperAdmins_iff.mpr fun v hv => ?_
  obtain ⟨r, hr, hactive⟩ := Store.mem_activeSuperAdmins.mp hv
  rw [Store.mem_activeSuperAdmins, Store.user_createUser]
  split
  · next h =>
    obtain ⟨rfl, hnone⟩ := h
    exact absurd (hr.symm.trans hnone) (Option.some_ne_none r)
  · exact ⟨r, hr, hactive⟩

/-! ## Programs -/

theorem keeping_reads {next : Store → Program} (h : ∀ s, HasSuperAdmin s → known s →
      Keeping (next s) fun s' => known s' ∧ keepsSuperAdmins s s' = true) :
    Keeping (.read next) known := h

theorem keeping_read {next : Store → Program} (h : ∀ s, Keeping (next s) known) :
    Keeping (.read next) known :=
  keeping_reads fun s _ _ => (h s).mono fun _ hs => hs.1

variable {f : Store → Store}

theorem keeping_write {next : Store → Program}
    (hf : ∀ s, keepsSuperAdmins s (f s) = true) (hnext : ∀ s, Keeping (next s) fun _ => True) :
    Keeping (.write f next) known :=
  fun s hs _ => ⟨hs.mono (hf s), (hnext s).mono fun _ _ => trivial⟩

theorem keeping_last (hf : ∀ s, keepsSuperAdmins s (f s) = true) : Keeping (.last f) known :=
  keeping_write hf fun _ => trivial

theorem keeping_last_of_other (hf : ∀ s v, v ≠ username → (f s).user v = s.user v) :
    Keeping (.last f) (HasOther username) := by
  rintro s - ⟨v, hv, hne⟩
  refine ⟨List.ne_nil_of_mem (a := v) ?_, trivial⟩
  rw [Store.mem_activeSuperAdmins, hf s v hne]
  exact Store.mem_activeSuperAdmins.mp hv

variable {next : CurrentUser → Program}

theorem keeping_getCurrentUser {t : Session}
    (h : ∀ me, Keeping (next me) known) : Keeping (getCurrentUser t next) known := by
  refine keeping_read fun s => ?_
  split
  · trivial
  · refine keeping_read fun s => ?_
    split
    · trivial
    · refine keeping_read fun s => ?_
      split
      · trivial
      · refine keeping_read fun s => ?_
        split
        · trivial
        · exact h _

theorem keeping_effectiveTabs {next : Option (List String) → Program}
    (h : ∀ tabs, Keeping (next tabs) known) : Keeping (effectiveTabs username next) known := by
  refine keeping_read fun s => ?_
  split
  · exact h none
  · exact keeping_read fun s => h _

theorem keeping_usersRoute {t : Session}
    (h : ∀ me, Keeping (next me) known) : Keeping (usersRoute t next) known := by
  refine keeping_getCurrentUser fun me => keeping_effectiveTabs fun tabs => ?_
  split
  · exact h me
  · trivial

theorem keeping_adminRoute {t : Session}
    (h : ∀ me, Keeping (next me) known) : Keeping (adminRoute t next) known := by
  refine keeping_usersRoute fun me => ?_
  split
  · exact h me
  · trivial

theorem keeping_withinScope {me : CurrentUser} {target : String} {next : Bool → Program}
    (h : ∀ visible, Keeping (next visible) known) (scope : Option (List String)) :
    Keeping (match scope with
      | none => next true
      | some scope =>
        if target = me.sub then next true
        else .read fun s =>
          let groups := s.getUserGroups target
          next (groups ≠ [] && groups.all (· ∈ scope))) known := by
  split
  · exact h true
  · split
    · exact h true
    · exact keeping_read fun s => h _

theorem keeping_userVisibleTo {me : CurrentUser} {target : String} {next : Bool → Program}
    (h : ∀ visible, Keeping (next visible) known) :
    Keeping (userVisibleTo me target next) known := by
  rw [userVisibleTo, userGroupScope]
  split
  · exact h true
  · exact keeping_read fun s => keeping_withinScope h _

theorem keeping_assertCanManage {me : CurrentUser} {target : String} {newRole : Option Role}
    {allowSelf : Bool} (h : Keeping p known) :
    Keeping (assertCanManage me target newRole allowSelf p) known := by
  refine keeping_read fun s => ?_
  split
  · trivial
  · refine keeping_userVisibleTo fun visible => ?_
    split
    · exact h
    · trivial

theorem keeping_isLastActiveSuperAdmin {next : Bool → Program}
    (htrue : Keeping (next true) fun _ => True)
    (hfalse : Keeping (next false) (HasOther username)) :
    Keeping (isLastActiveSuperAdmin username next) fun _ => True := by
  refine keeping_reads fun s hs _ => ?_
  split
  · -- The account counts: what matters is the count that is read next.
    refine keeping_reads fun s _ _ => ?_
    by_cases hcount : s.countActiveSuperAdmins ≤ 1
    · rw [decide_eq_true hcount]
      exact htrue.mono fun _ _ => trivial
    · rw [decide_eq_false hcount]
      exact hfalse.mono fun s' hs' => (hasOther_of_count hcount).mono hs'.2
  · next hinactive =>
    have hother := hasOther_of_inactive hs (eq_false_of_ne_true hinactive)
    exact hfalse.mono fun s' hs' => hother.mono hs'.2

theorem keeping_unlessLast (hf : ∀ s v, v ≠ username → (f s).user v = s.user v) :
    Keeping (isLastActiveSuperAdmin username fun last => if last then .done else .last f)
      fun _ => True :=
  keeping_isLastActiveSuperAdmin trivial (keeping_last_of_other hf)

/-! ## Requests -/

inductive Request where
  | delete (t : Session) (username : String)
  | role (t : Session) (username role : String)
  | disable (t : Session) (username : String) (disabled : Bool)
  | approve (t : Session) (username : String)
  | resetPassword (username newPassword hashed : String)
  | sso (l : SsoLogin)

def Request.program : Request → Program
  | .delete t username => deleteUserEp t username
  | .role t username new => setUserRoleEp t username new
  | .disable t username disabled => disableUserEp t username disabled
  | .approve t username => approveUser t username
  | .resetPassword username newPassword hashed => Users.resetPassword username newPassword hashed
  | .sso l => ssoCallback l

def IsRequest (p : Program) : Prop := ∃ req : Request, p = req.program

theorem user_update_of_ne {f : Record → Record} (s : Store) (v : String) (h : v ≠ username) :
    (s.update username f).user v = s.user v := by
  rw [Store.user_update, if_neg (Ne.symm h)]

theorem keeping_delete (t : Session) (username : String) :
    Keeping (deleteUserEp t username) fun _ => True := by
  refine keeping_usersRoute fun me => ?_
  split
  · trivial
  · refine keeping_assertCanManage (keeping_unlessLast fun s v hne => ?_)
    rw [Store.user_deleteUser, if_neg (Ne.symm hne)]

theorem keeping_role (t : Session) (username role : String) :
    Keeping (setUserRoleEp t username role) fun _ => True := by
  refine keeping_adminRoute fun me => ?_
  split
  · trivial
  · refine keeping_assertCanManage ?_
    split
    · next hrole =>
      refine keeping_last fun s => keepsSuperAdmins_update _ fun r hr => ?_
      rw [hrole]
      simp only [Record.isActiveSuperAdmin, Bool.and_eq_true] at hr ⊢
      exact ⟨⟨rfl, hr.1.2⟩, hr.2⟩
    · exact keeping_unlessLast user_update_of_ne

theorem keeping_disable (t : Session) (username : String) (disabled : Bool) :
    Keeping (disableUserEp t username disabled) fun _ => True := by
  refine keeping_adminRoute fun me => ?_
  split
  · trivial
  · refine keeping_assertCanManage ?_
    split
    · exact keeping_unlessLast user_update_of_ne
    · refine keeping_last fun s => keepsSuperAdmins_update _ fun r hr => ?_
      simp only [Record.isActiveSuperAdmin, Bool.and_eq_true] at hr ⊢
      exact ⟨⟨hr.1.1, rfl⟩, hr.2⟩

theorem keeping_approve (t : Session) (username : String) :
    Keeping (approveUser t username) fun _ => True := by
  refine keeping_adminRoute fun me => keeping_assertCanManage ?_
  refine keeping_write (fun s => ?_) fun _ => ?_
  · refine keepsSuperAdmins_update _ fun r hr => ?_
    simp only [Record.isActiveSuperAdmin, Bool.and_eq_true] at hr ⊢
    exact ⟨hr.1, rfl⟩
  · refine keeping_effectiveTabs fun tabs => ?_
    split
    · trivial
    · refine keeping_effectiveTabs fun tabs => ?_
      split
      · exact keeping_last fun s => keepsSuperAdmins_update _ fun r hr => hr
      · trivial

theorem keeping_resetPassword (username newPassword hashed : String) :
    Keeping (Users.resetPassword username newPassword hashed) fun _ => True := by
  rw [Users.resetPassword]
  split
  · trivial
  · refine keeping_read fun s => ?_
    split
    · trivial
    · refine keeping_read fun s => ?_
      split
      · trivial
      · refine keeping_read fun s => keeping_write (fun s => ?_) fun _ => ?_
        · refine keepsSuperAdmins_update _ fun r hr => ?_
          simp only [Record.isActiveSuperAdmin, Bool.and_eq_true] at hr ⊢
          exact ⟨⟨hr.1.1, rfl⟩, hr.2⟩
        · split
          · exact keeping_last fun s => keepsSuperAdmins_update _ fun r hr => hr
          · trivial

theorem keeping_sso (l : SsoLogin) : Keeping (ssoCallback l) fun _ => True := by
  refine keeping_reads fun s hs _ => ?_
  split
  · split
    · exact keeping_last fun s => keepsSuperAdmins_createUser ..
    · trivial
  · next existing hexisting =>
    by_cases hrole : ssoSyncedRole existing l.mappedRole l.syncRoles = existing
    · refine keeping_read fun s => ?_
      split
      · trivial
      · refine keeping_read fun s => ?_
        split
        · trivial
        · rw [if_pos hrole]
          trivial
    · have hlocal : existing ≠ .superAdmin := by
        rintro rfl
        exact hrole (if_pos (Or.inr rfl))
      have hinactive : (s.user l.username).any Record.isActiveSuperAdmin = false := by
        obtain ⟨r, hr, rfl⟩ := Option.map_eq_some_iff.mp hexisting
        simp [hr, Record.isActiveSuperAdmin, hlocal]
      have hother := hasOther_of_inactive hs hinactive
      have hlast : Keeping (.last fun s => s.setRole l.username
          (ssoSyncedRole existing l.mappedRole l.syncRoles)) (HasOther l.username) :=
        keeping_last_of_other user_update_of_ne
      refine keeping_read fun s => ?_
      split
      · trivial
      · refine keeping_read fun s => ?_
        split
        · trivial
        · rw [if_neg hrole]
          exact hlast.mono fun s' hs' => hother.mono hs'.2

/-- A super administrator remains after every request during which none was taken away. -/
theorem keeping_request {p : Program} (hp : IsRequest p) : Keeping p fun _ => True := by
  obtain ⟨req, rfl⟩ := hp
  cases req with
  | delete t username => exact keeping_delete t username
  | role t username role => exact keeping_role t username role
  | disable t username disabled => exact keeping_disable t username disabled
  | approve t username => exact keeping_approve t username
  | resetPassword username newPassword hashed =>
    exact keeping_resetPassword username newPassword hashed
  | sso l => exact keeping_sso l

/-- **A super administrator remains** in every run of requests where a request during which another
one took a super administrator away takes none away itself. -/
theorem superAdmin_remains {s : Store} {acts : List (Act Store)} {S : System Store}
    (hs : HasSuperAdmin s)
    (hrun : Run (System.step keepsSuperAdmins) (System.Calm keepsSuperAdmins IsRequest) ⟨s, []⟩
      acts S) : HasSuperAdmin S.store :=
  System.invariant keepsSuperAdmins_trans keepsSuperAdmins_refl (fun _ _ => HasSuperAdmin.mono)
    (fun _ => keeping_request) hs hrun

/-! ## Two administrators -/

def superAdminRecord : Record := ⟨"", some .superAdmin, [], "", [], false, false, false, false, 0⟩

/-- Two super administrators. -/
def twoAdmins : Store :=
  ⟨[("anna", superAdminRecord), ("bruno", superAdminRecord)], by decide⟩

/-- A super administrator asks that another one be an administrator only. -/
def demotion (actor username : String) : Request := .role ⟨actor, 0, false⟩ username "admin"

/-- Each one asks that the other one be an administrator only. -/
def demotions : List Program :=
  [(demotion "anna" "bruno").program, (demotion "bruno" "anna").program]

/-- Both requests check before one of them writes. -/
def crossing : List ℕ := List.replicate 8 0 ++ List.replicate 8 1 ++ [0, 1]

/-- One request ends before the other one begins. -/
def inTurn : List ℕ := List.replicate 9 0 ++ List.replicate 9 1

theorem superAdmin_remains_inTurn :
    HasSuperAdmin (((plan demotions inTurn).foldl (System.step keepsSuperAdmins)
      ⟨twoAdmins, []⟩).store) := by
  have hdemotions : ∀ p ∈ demotions, IsRequest p := by
    intro p hp
    rcases List.mem_pair.mp hp with rfl | rfl
    · exact ⟨demotion "anna" "bruno", rfl⟩
    · exact ⟨demotion "bruno" "anna", rfl⟩
  exact superAdmin_remains (by decide) (System.run_of_calmTurns hdemotions (by decide))

/-- Two super administrators who demote each other at the same time are none. -/
theorem demotions_cross :
    HasSuperAdmin twoAdmins ∧
      ¬ HasSuperAdmin (((plan demotions crossing).foldl (System.step keepsSuperAdmins)
        ⟨twoAdmins, []⟩).store) := by
  refine ⟨by decide, not_not.mpr ?_⟩
  decide

end SentinelNet.Users
