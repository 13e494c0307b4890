import SentinelNet.Lib.Interleaving
import SentinelNet.Users.Store

/-!
# The requests of the user administration

A request of `routers/auth.py` is a program over the accounts: every reading of `users.json` is a
step of its own, and so is every read-modify-write of `user_manager`, in the order of the source.
A request that is refused ends there.

* `getCurrentUser`, `requireTab`, `adminRoute`: who may call a route.
* `userGroupScope` to `isLastActiveSuperAdmin`: the checks.
* `createUserEp` to `ssoCallback`: the routes.
-/

namespace SentinelNet.Users

open Interleaving
open Sessions (Role isAdmin)

/-- A program over the accounts. -/
abbrev Program := Prog Store

/-! ## Who calls -/

/-- What a session token says of its user. -/
structure Session where
  sub : String
  sep : ℕ
  ro : Bool

structure CurrentUser where
  sub : String
  role : Role

/-- `get_current_user`, for a token that is valid. -/
def getCurrentUser (t : Session) (next : CurrentUser → Program) : Program :=
  .read fun s =>
    match s.getRole t.sub with
    | none => .done
    | some role =>
      .read fun s =>
        if s.isDisabled t.sub then .done
        else .read fun s =>
          if s.isPending t.sub then .done
          else .read fun s =>
            if t.sep ≠ s.sessionEpoch t.sub then .done
            else next ⟨t.sub, if t.ro then .viewer else role⟩

def effectiveTabs (username : String) (next : Option (List String) → Program) : Program :=
  .read fun s =>
    if s.getRole username = some .superAdmin then next none
    else .read fun s => next (grantedTabs (s.getAllowedTabs username))

def requireTab (me : CurrentUser) (tab : String) (next : Program) : Program :=
  effectiveTabs me.sub fun tabs => if tabs.all (tab ∈ ·) then next else .done

/-- A route behind `require_tab("tab-users")`. -/
def usersRoute (t : Session) (next : CurrentUser → Program) : Program :=
  getCurrentUser t fun me => requireTab me "tab-users" (next me)

/-- A route behind `require_tab("tab-users")` and `require_admin`. -/
def adminRoute (t : Session) (next : CurrentUser → Program) : Program :=
  usersRoute t fun me => if isAdmin me.role then next me else .done

/-! ## Checks -/

def userGroupScope (me : CurrentUser) (next : Option (List String) → Program) : Program :=
  if me.role = .superAdmin then next none
  else .read fun s =>
    let groups := s.getUserGroups me.sub
    next (if groups = [] then none else some groups)

def userVisibleTo (me : CurrentUser) (target : String) (next : Bool → Program) : Program :=
  userGroupScope me fun scope =>
    match scope with
    | none => next true
    | some scope =>
      if target = me.sub then next true
      else .read fun s =>
        let groups := s.getUserGroups target
        next (groups ≠ [] && groups.all (· ∈ scope))

def assertCanManage (me : CurrentUser) (target : String) (newRole : Option Role)
    (allowSelf : Bool) (next : Program) : Program :=
  .read fun s =>
    match s.getRole target with
    | none => .done
    | some targetRole =>
      userVisibleTo me target fun visible =>
        if visible ∧ (target = me.sub ∧ allowSelf ∨ canManage me.role targetRole) ∧
            newRole.all (canAssign me.role ·) then next
        else .done

def assertGroupsWithinScope (me : CurrentUser) (groups : List String) (next : Program) : Program :=
  userGroupScope me fun scope =>
    if scope.all fun scope => groups ≠ [] && groups.all (· ∈ scope) then next else .done

def assertTabsWithinGrant (me : CurrentUser) (tabs : List String) (next : Program) : Program :=
  effectiveTabs me.sub fun actorTabs =>
    let normalized := (tabs.filter (· ≠ "tab-home")).map tabAlias
    if actorTabs.all fun actorTabs => normalized ≠ [] && normalized.all (· ∈ actorTabs) then next
    else .done

def isLastActiveSuperAdmin (username : String) (next : Bool → Program) : Program :=
  .read fun s =>
    if (s.user username).any Record.isActiveSuperAdmin then
      .read fun s => next (s.countActiveSuperAdmins ≤ 1)
    else next false

/-- An address that is not empty has an at sign. -/
def emailOk (email : String) : Bool := email = "" || '@' ∈ email.toList

/-! ## Routes -/

/-- What `create_user_ep` is asked for, and what it finds outside of the accounts: the groups of
the inventory, whether there is a base address, and whether the mail is sent. -/
structure Creation where
  username : String
  password : String
  role : String
  groups : List String
  email : String
  /-- The hash of the password, or of a random one. -/
  hashed : String
  allGroups : List String
  baseUrl : Bool
  sent : Bool

/-- The groups of a request that exist. -/
def validGroups (allGroups groups : List String) : List String := groups.filter (· ∈ allGroups)

/-- The end of `create_user_ep`: an account without a password is deleted again if the link for its
first one cannot be sent. -/
def mailSetupLink (username : String) (setupLink sent : Bool) : Program :=
  if setupLink then
    .write (fun s => s.markAwaitingPassword username) fun _ =>
      if sent then .done else .last (fun s => s.deleteUser username)
  else .done

/-- A new account gets the tabs of an administrator whose tabs are restricted. -/
def openAccount (me : CurrentUser) (username : String) (setupLink sent : Bool) : Program :=
  effectiveTabs me.sub fun actorTabs =>
    match actorTabs with
    | none => mailSetupLink username setupLink sent
    | some tabs =>
      .write (fun s => s.setAllowedTabs username (withoutHome tabs)) fun _ =>
        mailSetupLink username setupLink sent

/-- A new account has a password, or an address to which the link for its first one is sent. -/
def Creation.hasCredentials (c : Creation) : Bool :=
  if c.password = "" then PyText.strip c.email ≠ "" && c.baseUrl else 8 ≤ c.password.length

def createUserEp (t : Session) (c : Creation) : Program :=
  adminRoute t fun me =>
    match roleNamed c.role with
    | none => .done
    | some role =>
      let username := PyText.strip c.username
      let email := PyText.strip c.email
      let setupLink : Bool := c.password = ""
      if canAssign me.role role ∧ username ≠ "" ∧ emailOk email ∧ c.hasCredentials then
        let groups := validGroups c.allGroups c.groups
        assertGroupsWithinScope me groups <|
          .write (fun s => s.createUser username c.hashed role groups (!setupLink) email false)
            fun found =>
              if (found.user username).isSome then .done
              else openAccount me username setupLink c.sent
      else .done

def deleteUserEp (t : Session) (username : String) : Program :=
  usersRoute t fun me =>
    if username ≠ me.sub ∧ ¬ isAdmin me.role then .done
    else
      assertCanManage me username none true <|
        isLastActiveSuperAdmin username fun last =>
          if last then .done else .last (fun s => s.deleteUser username)

def setUserRoleEp (t : Session) (username role : String) : Program :=
  adminRoute t fun me =>
    match roleNamed role with
    | none => .done
    | some role =>
      assertCanManage me username (some role) false <|
        if role = .superAdmin then .last (fun s => s.setRole username role)
        else
          isLastActiveSuperAdmin username fun last =>
            if last then .done else .last (fun s => s.setRole username role)

def disableUserEp (t : Session) (username : String) (disabled : Bool) : Program :=
  adminRoute t fun me =>
    if disabled ∧ username = me.sub then .done
    else
      assertCanManage me username none false <|
        if disabled then
          isLastActiveSuperAdmin username fun last =>
            if last then .done else .last (fun s => s.setDisabled username true)
        else .last (fun s => s.setDisabled username false)

def setUserGroupsEp (t : Session) (username : String) (groups allGroups : List String) : Program :=
  adminRoute t fun me =>
    assertCanManage me username none false <|
      let groups := validGroups allGroups groups
      assertGroupsWithinScope me groups <|
        .last (fun s => s.setGroups username groups)

def setUserTabsEp (t : Session) (username : String) (allowedTabs : List String) : Program :=
  adminRoute t fun me =>
    assertCanManage me username none false <|
      assertTabsWithinGrant me allowedTabs <|
        .last (fun s => s.setAllowedTabs username allowedTabs)

/-- `admin_send_reset`, which writes a link and no account. -/
def adminSendReset (t : Session) (username : String) : Program :=
  adminRoute t fun me => assertCanManage me username none false .done

def approveUser (t : Session) (username : String) : Program :=
  adminRoute t fun me =>
    assertCanManage me username none false <|
      .write (fun s => s.approve username) fun _ =>
        effectiveTabs me.sub fun actorTabs =>
          match actorTabs with
          | none => .done
          | some tabs =>
            effectiveTabs username fun targetTabs =>
              match targetTabs with
              | none => .last (fun s => s.setAllowedTabs username (withoutHome tabs))
              | some _ => .done

/-- `reset_password`, for a link of a user. -/
def resetPassword (username newPassword hashed : String) : Program :=
  if newPassword.length < 8 then .done
  else
    .read fun s =>
      if (s.getRole username).isNone then .done
      else .read fun s =>
        if s.isDisabled username then .done
        else .read fun s =>
          let first := s.awaitingPassword username
          .write (fun s => s.resetPasswordBreakGlass username hashed) fun _ =>
            if first then .last (fun s => s.passwordChosenByUser username) else .done

def setUserEmail (t : Session) (username email : String) : Program :=
  adminRoute t fun me =>
    assertCanManage me username none true <|
      let email := PyText.strip email
      if emailOk email then .last (fun s => s.setEmail username email) else .done

/-- What `sso_callback` learns from the provider and from the settings. -/
structure SsoLogin where
  username : String
  mappedRole : Role
  email : String
  hashed : String
  autoProvision : Bool
  syncRoles : Bool

def ssoSyncedRole (existing mapped : Role) (sync : Bool) : Role :=
  if !sync ∨ existing = .superAdmin then existing else mapped

/-- `sso_callback`, for a login that the provider confirms. -/
def ssoCallback (l : SsoLogin) : Program :=
  .read fun s =>
    match s.getRole l.username with
    | none =>
      if l.autoProvision then
        .last (fun s => s.createUser l.username l.hashed l.mappedRole [] false l.email false)
      else .done
    | some existing =>
      .read fun s =>
        if s.isDisabled l.username then .done
        else .read fun s =>
          if s.isPending l.username then .done
          else
            let role := ssoSyncedRole existing l.mappedRole l.syncRoles
            if role = existing then .done else .last (fun s => s.setRole l.username role)

end SentinelNet.Users
