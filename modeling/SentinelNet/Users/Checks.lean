import SentinelNet.Users.Routes

/-!
# What the checks let through

A request that runs alone either ends at a check, and then leaves the accounts as they are, or goes
on with what the check lets through.

* `scopeOf`, `Store.visibleTo`: the scope of a caller, and the accounts in it.
* `run_effectiveTabs`, `run_userGroupScope`, `run_userVisibleTo`: what a reading step passes on.
* `run_usersRoute` to `run_unlessLast`: a refusal, or what was checked.
-/

namespace SentinelNet.Users

open Interleaving
open Sessions (Role isAdmin)

/-- The groups of a caller that restrict it. -/
def Store.scopeOf (s : Store) (me : CurrentUser) : Option (List String) :=
  if me.role = .superAdmin ∨ s.getUserGroups me.sub = [] then none
  else some (s.getUserGroups me.sub)

def Store.visibleTo (s : Store) (me : CurrentUser) (target : String) : Bool :=
  match s.scopeOf me with
  | none => true
  | some scope =>
    target = me.sub || s.getUserGroups target ≠ [] && (s.getUserGroups target).all (· ∈ scope)

variable {s : Store} {t : Session} {me : CurrentUser}

/-! ## Readings -/

theorem run_effectiveTabs (username : String) (next : Option (List String) → Program) :
    (effectiveTabs username next).run s = (next (s.effectiveTabs username)).run s := by
  rw [effectiveTabs, Prog.run_read, Store.effectiveTabs]
  split
  · rfl
  · rfl

theorem run_userGroupScope (next : Option (List String) → Program) :
    (userGroupScope me next).run s = (next (s.scopeOf me)).run s := by
  rw [userGroupScope, Store.scopeOf]
  by_cases hrole : me.role = .superAdmin
  · rw [if_pos hrole, if_pos (Or.inl hrole)]
  · rw [if_neg hrole, Prog.run_read]
    by_cases hgroups : s.getUserGroups me.sub = []
    · rw [if_pos (Or.inr hgroups)]
      simp only [hgroups, if_true]
    · rw [if_neg (not_or.mpr ⟨hrole, hgroups⟩)]
      simp only [hgroups, if_false]

theorem run_userVisibleTo (target : String) (next : Bool → Program) :
    (userVisibleTo me target next).run s = (next (s.visibleTo me target)).run s := by
  rw [userVisibleTo, run_userGroupScope, Store.visibleTo]
  cases s.scopeOf me with
  | none => rfl
  | some scope =>
    by_cases htarget : target = me.sub
    · simp only [htarget, if_true, decide_true, Bool.true_or]
    · simp only [htarget, if_false, decide_false, Bool.false_or, Prog.run_read]

/-! ## Callers -/

/-- A caller behind `require_tab("tab-users")`. -/
structure Admitted (s : Store) (t : Session) (me : CurrentUser) : Prop where
  sub : me.sub = t.sub
  role : ∃ role, s.getRole t.sub = some role ∧ me.role = if t.ro then .viewer else role
  tab : (s.effectiveTabs me.sub).all ("tab-users" ∈ ·) = true

theorem run_getCurrentUser (t : Session) (next : CurrentUser → Program) (s : Store) :
    (getCurrentUser t next).run s = s ∨
      ∃ role, s.getRole t.sub = some role ∧
        (getCurrentUser t next).run s =
          (next ⟨t.sub, if t.ro then .viewer else role⟩).run s := by
  rw [getCurrentUser, Prog.run_read]
  split
  · exact Or.inl rfl
  · next role hrole =>
    rw [Prog.run_read]
    split
    · exact Or.inl rfl
    · rw [Prog.run_read]
      split
      · exact Or.inl rfl
      · rw [Prog.run_read]
        split
        · exact Or.inl rfl
        · exact Or.inr ⟨role, hrole, rfl⟩

theorem run_usersRoute (t : Session) (next : CurrentUser → Program) (s : Store) :
    (usersRoute t next).run s = s ∨
      ∃ me, Admitted s t me ∧ (usersRoute t next).run s = (next me).run s := by
  rw [usersRoute]
  rcases run_getCurrentUser t (fun me => requireTab me "tab-users" (next me)) s with
    hend | ⟨role, hrole, hrun⟩
  · exact Or.inl hend
  · rw [hrun, requireTab, run_effectiveTabs]
    by_cases htab : (s.effectiveTabs t.sub).all ("tab-users" ∈ ·) = true
    · rw [if_pos htab]
      exact Or.inr ⟨_, ⟨rfl, ⟨role, hrole, rfl⟩, htab⟩, rfl⟩
    · rw [if_neg htab]
      exact Or.inl rfl

theorem run_adminRoute (t : Session) (next : CurrentUser → Program) (s : Store) :
    (adminRoute t next).run s = s ∨
      ∃ me, Admitted s t me ∧ isAdmin me.role = true ∧
        (adminRoute t next).run s = (next me).run s := by
  rw [adminRoute]
  rcases run_usersRoute t (fun me => if isAdmin me.role then next me else .done) s with
    hend | ⟨me, hme, hrun⟩
  · exact Or.inl hend
  · rw [hrun]
    split
    · next hadmin => exact Or.inr ⟨me, hme, hadmin, rfl⟩
    · exact Or.inl rfl

theorem Admitted.getRole (hme : Admitted s t me) (hadmin : isAdmin me.role) :
    s.getRole t.sub = some me.role := by
  obtain ⟨role, hrole, hrank⟩ := hme.role
  split at hrank
  · rw [hrank] at hadmin
    exact absurd hadmin (by decide)
  · rw [hrank, hrole]

/-! ## Checks -/

/-- A target that may be managed. -/
structure Manageable (s : Store) (me : CurrentUser) (target : String) (allowSelf : Bool)
    (r : Record) : Prop where
  record : s.user target = some r
  visible : s.visibleTo me target = true
  rank : target = me.sub ∧ allowSelf = true ∨ canManage me.role r.roleOf = true

variable (s me) in
theorem run_assertCanManage (target : String) (newRole : Option Role) (allowSelf : Bool)
    (next : Program) :
    (assertCanManage me target newRole allowSelf next).run s = s ∨
      (∃ r, Manageable s me target allowSelf r) ∧ newRole.all (canAssign me.role ·) = true ∧
        (assertCanManage me target newRole allowSelf next).run s = next.run s := by
  rw [assertCanManage, Prog.run_read]
  split
  · exact Or.inl rfl
  · next targetRole hrole =>
    obtain ⟨r, hr, rfl⟩ := Option.map_eq_some_iff.mp hrole
    rw [run_userVisibleTo]
    split
    · next h => exact Or.inr ⟨⟨r, hr, h.1, h.2.1⟩, h.2.2, rfl⟩
    · exact Or.inl rfl

variable (s me) in
theorem run_assertGroupsWithinScope (groups : List String) (next : Program) :
    (assertGroupsWithinScope me groups next).run s = s ∨
      (∀ scope, s.scopeOf me = some scope → groups ≠ [] ∧ ∀ g ∈ groups, g ∈ scope) ∧
        (assertGroupsWithinScope me groups next).run s = next.run s := by
  rw [assertGroupsWithinScope, run_userGroupScope]
  split
  · next h =>
    refine Or.inr ⟨fun scope hscope => ?_, rfl⟩
    simpa [hscope] using h
  · exact Or.inl rfl

/-- The tabs that `assert_tabs_within_grant` compares. -/
def normalized (tabs : List String) : List String := (tabs.filter (· ≠ "tab-home")).map tabAlias

variable (s me) in
theorem run_assertTabsWithinGrant (tabs : List String) (next : Program) :
    (assertTabsWithinGrant me tabs next).run s = s ∨
      (∀ granted, s.effectiveTabs me.sub = some granted →
        normalized tabs ≠ [] ∧ ∀ t ∈ normalized tabs, t ∈ granted) ∧
        (assertTabsWithinGrant me tabs next).run s = next.run s := by
  rw [assertTabsWithinGrant, run_effectiveTabs]
  dsimp only
  split
  · next h =>
    refine Or.inr ⟨fun granted hgranted => ?_, rfl⟩
    rw [hgranted, Option.all_some, Bool.and_eq_true, decide_eq_true_iff, List.all_eq_true] at h
    exact ⟨h.1, fun t ht => of_decide_eq_true (h.2 t ht)⟩
  · exact Or.inl rfl

theorem run_unlessLast (username : String) (f : Store → Store) :
    (isLastActiveSuperAdmin username fun last => if last then .done else .last f).run s = s ∨
      (isLastActiveSuperAdmin username fun last => if last then .done else .last f).run s =
        f s := by
  rw [isLastActiveSuperAdmin, Prog.run_read]
  split
  · rw [Prog.run_read]
    split
    · exact Or.inl rfl
    · exact Or.inr rfl
  · exact Or.inr rfl

end SentinelNet.Users
