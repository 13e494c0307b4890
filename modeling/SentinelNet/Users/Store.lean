import SentinelNet.Lib.Text
import SentinelNet.Sessions.ReadOnlyClients

/-!
# The accounts and their rights

`security/user_manager.py` keeps the accounts in one file, a record for every name.  An empty list
of groups stands for every tenant and an empty list of tabs for every tab.

* `getRole`, `getUserGroups`, `effectiveTabs`, `isLastActiveSuperAdmin`: reading.
* `createUser`, `deleteUser`, `setRole`, `setGroups`, …: writing.
-/

namespace SentinelNet.Users

open Assoc
open Sessions (Role isAdmin)

/-! ## Roles -/

/-- The roles by name. -/
def roleNamed : String → Option Role
  | "super_admin" => some .superAdmin
  | "admin" => some .admin
  | "operator" => some .operator
  | "viewer" => some .viewer
  | _ => none

def rank : Role → ℕ
  | .viewer => 0
  | .operator => 1
  | .admin => 2
  | .superAdmin => 3

def canManage (actor target : Role) : Bool := actor = .superAdmin ∨ rank target < rank actor

def canAssign (actor new : Role) : Bool := actor = .superAdmin ∨ rank new < rank actor

/-! ## Tabs -/

/-- `TAB_ALIASES`. -/
def tabAlias : String → String
  | "tab-mac" => "tab-endpoint"
  | "tab-clientmap" => "tab-endpoint"
  | "tab-diagnosi" => "tab-endpoint"
  | "tab-endpoints" => "tab-endpoint"
  | t => t

def subtabGrants : String → List String
  | "tab-map" => ["tab-map-interactive"]
  | "tab-provisioning" => ["tab-provisioner"]
  | "tab-devices" => ["tab-device-history"]
  | _ => []

def alwaysGrantedTabs : List String := ["tab-home"]

def grantedTabs (raw : List String) : Option (List String) :=
  if raw = [] then none
  else
    let tabs := raw.map tabAlias
    some (tabs ++ tabs.flatMap subtabGrants ++ alwaysGrantedTabs)

def withoutHome (tabs : List String) : List String :=
  ((tabs.filter (· ≠ "tab-home")).dedup).insertionSort (· ≤ ·)

theorem mem_withoutHome {tabs : List String} {t : String} :
    t ∈ withoutHome tabs ↔ t ∈ tabs ∧ t ≠ "tab-home" := by
  rw [withoutHome, List.mem_insertionSort, List.mem_dedup, List.mem_filter, decide_eq_true_iff]

/-! ## Records -/

/-- A record of `users.json`.  A record without a role is older than the roles. -/
structure Record where
  hashedPassword : String
  role : Option Role
  groups : List String
  email : String
  allowedTabs : List String
  disabled : Bool
  mustChangePassword : Bool
  pendingApproval : Bool
  awaitingPassword : Bool
  sessionEpoch : ℕ
  deriving DecidableEq

def Record.roleOf (r : Record) : Role := r.role.getD .superAdmin

/-- A super administrator that is neither disabled nor pending. -/
def Record.isActiveSuperAdmin (r : Record) : Bool :=
  r.roleOf = .superAdmin && !r.disabled && !r.pendingApproval

/-- The records, one for every name. -/
structure Store where
  users : List (String × Record)
  nodup : (users.map Prod.fst).Nodup

namespace Store

variable (s : Store)

/-! ## Reading -/

def user (username : String) : Option Record := find s.users username

def getRole (username : String) : Option Role := (s.user username).map Record.roleOf

def isDisabled (username : String) : Bool := (s.user username).any Record.disabled

def isPending (username : String) : Bool := (s.user username).any Record.pendingApproval

def awaitingPassword (username : String) : Bool := (s.user username).any Record.awaitingPassword

def sessionEpoch (username : String) : ℕ := ((s.user username).map Record.sessionEpoch).getD 0

def getEmail (username : String) : String := ((s.user username).map Record.email).getD ""

def getUserGroups (username : String) : List String := ((s.user username).map Record.groups).getD []

def getAllowedTabs (username : String) : List String :=
  ((s.user username).map Record.allowedTabs).getD []

def effectiveTabs (username : String) : Option (List String) :=
  if s.getRole username = some .superAdmin then none else grantedTabs (s.getAllowedTabs username)

def activeSuperAdmins : List String :=
  (s.users.filter fun e => e.2.isActiveSuperAdmin).map Prod.fst

def countActiveSuperAdmins : ℕ := (s.users.filter fun e => e.2.isActiveSuperAdmin).length

/-! ## Writing -/

def put (username : String) (r : Record) : Store :=
  ⟨Assoc.put s.users username r, nodup_put s.nodup username r⟩

def update (username : String) (f : Record → Record) : Store :=
  match s.user username with
  | none => s
  | some r => s.put username (f r)

/-- `create_user`; the hash of a password is salted, so it is a new text every time. -/
def createUser (username hashed : String) (role : Role) (groups : List String)
    (mustChange : Bool) (email : String) (pending : Bool) : Store :=
  match s.user username with
  | some _ => s
  | none =>
    s.put username
      ⟨hashed, some role, groups, PyText.strip email, [], false, mustChange, pending, false, 0⟩

def deleteUser (username : String) : Store := ⟨erase s.users username, nodup_erase s.nodup username⟩

def setRole (username : String) (role : Role) : Store :=
  s.update username fun r => { r with role := some role }

def setDisabled (username : String) (disabled : Bool) : Store :=
  s.update username fun r => { r with disabled := disabled }

def approve (username : String) : Store :=
  s.update username fun r => { r with pendingApproval := false }

def setGroups (username : String) (groups : List String) : Store :=
  s.update username fun r => { r with groups := groups }

def setAllowedTabs (username : String) (tabs : List String) : Store :=
  s.update username fun r => { r with allowedTabs := tabs }

def setEmail (username email : String) : Store :=
  s.update username fun r => { r with email := PyText.strip email }

def markAwaitingPassword (username : String) : Store :=
  s.update username fun r => { r with awaitingPassword := true }

def passwordChosenByUser (username : String) : Store :=
  s.update username fun r => { r with awaitingPassword := false, mustChangePassword := false }

def resetPasswordBreakGlass (username hashed : String) : Store :=
  s.update username fun r =>
    { r with hashedPassword := hashed, mustChangePassword := true, disabled := false }

/-! ## What writing does to the records -/

variable {s}

theorem user_put (username username' : String) (r : Record) :
    (s.put username r).user username' = if username = username' then some r
      else s.user username' :=
  find_put s.users username username' r

theorem user_update (username username' : String) (f : Record → Record) :
    (s.update username f).user username' = if username = username' then (s.user username').map f
      else s.user username' := by
  rw [update]
  split
  · next hnone =>
    split
    · next heq => rw [← heq, hnone, Option.map_none]
    · rfl
  · next r hr =>
    rw [user_put]
    split
    · next heq => rw [← heq, hr, Option.map_some]
    · rfl

theorem user_deleteUser (username username' : String) :
    (s.deleteUser username).user username' = if username = username' then none
      else s.user username' :=
  find_erase s.users username username'

theorem user_createUser (username hashed : String) (role : Role) (groups : List String)
    (mustChange : Bool) (email : String) (pending : Bool) (username' : String) :
    (s.createUser username hashed role groups mustChange email pending).user username' =
      if username = username' ∧ s.user username = none then
        some
          ⟨hashed, some role, groups, PyText.strip email, [], false, mustChange, pending, false, 0⟩
      else s.user username' := by
  rw [createUser]
  split
  · next r hr => rw [if_neg fun h => Option.some_ne_none r (hr.symm.trans h.2)]
  · next hnone =>
    rw [user_put]
    by_cases h : username = username'
    · rw [if_pos h, if_pos ⟨h, hnone⟩]
    · rw [if_neg h, if_neg fun h' => h h'.1]

/-! ## Active super administrators -/

theorem mem_activeSuperAdmins {username : String} :
    username ∈ s.activeSuperAdmins ↔
      ∃ r, s.user username = some r ∧ r.isActiveSuperAdmin = true := by
  rw [activeSuperAdmins, List.mem_map]
  constructor
  · rintro ⟨⟨name, r⟩, he, rfl⟩
    obtain ⟨he, hr⟩ := List.mem_filter.mp he
    exact ⟨r, find_of_mem s.nodup he, hr⟩
  · rintro ⟨r, hr, hactive⟩
    exact ⟨(username, r), List.mem_filter.mpr ⟨mem_of_find hr, hactive⟩, rfl⟩

theorem nodup_activeSuperAdmins : s.activeSuperAdmins.Nodup :=
  s.nodup.sublist (List.filter_sublist.map Prod.fst)

theorem countActiveSuperAdmins_eq : s.countActiveSuperAdmins = s.activeSuperAdmins.length :=
  (List.length_map _).symm

end Store

end SentinelNet.Users
