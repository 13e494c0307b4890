import SentinelNet.Lib.Assoc
import SentinelNet.Lib.Runs

/-!
# Accounts and what they sign in with

An account of `security/user_manager.py` is reached by five kinds of credential: the session tokens
of `security/security_manager.py`, the codes and the grants of `security/mcp_grants.py`, the reset
links of `security/password_reset.py` and the links of `security/email_verify.py`.  Every kind has a
store of its own, and what ties a credential to its account is the name of the account, with the
session epoch for tokens and grants.

* `getCurrentUser`: who a token speaks for.
* `createUser` to `verifyEmail`: the operations.
* `step`: an action.

Every token, code, grant and link is a new number, as nobody can guess one.
-/

namespace SentinelNet.Sessions

open Assoc

/-! ## Accounts and credentials -/

inductive Role where
  | viewer
  | operator
  | admin
  | superAdmin
  deriving DecidableEq

/-- An account of `users.json`. -/
structure Account where
  hashedPassword : String
  role : Role
  email : String
  disabled : Bool
  mustChangePassword : Bool
  pendingApproval : Bool
  awaitingPassword : Bool
  sessionEpoch : ℕ
  deriving DecidableEq

/-- The claims of a session token. -/
structure Token where
  sub : String
  role : Role
  sep : ℕ
  ro : Bool
  jti : ℕ
  exp : ℤ
  authTime : ℤ
  deriving DecidableEq

/-- A code of a client that was approved. -/
structure Code where
  user : String
  challenge : String
  readOnly : Bool
  exp : ℚ

structure Grant where
  user : String
  readOnly : Bool
  sep : ℕ

structure Settings where
  idleMinutes : ℕ
  maxHours : ℕ

/-- How often a name was deleted, and how often it was signed out everywhere. -/
structure Stamp where
  deletions : ℕ
  signOuts : ℕ
  deriving DecidableEq

/-- What happened so far.  No operation reads it. -/
structure Past where
  deletions : String → ℕ
  signOuts : String → ℕ
  /-- The stamp of its user when a credential was issued, or approved. -/
  stamps : ℕ → Stamp
  /-- The sign-in that a token comes from. -/
  signIn : ℕ → ℕ
  /-- The sign-ins with a logout. -/
  ended : ℕ → Bool

/-- The stores and the clock. -/
structure State where
  now : ℚ
  settings : Settings
  users : List (String × Account)
  issued : List Token
  revoked : List (ℕ × ℤ)
  codes : List (ℕ × Code)
  grants : List (ℕ × Grant)
  resets : List (ℕ × String × ℚ)
  verifications : List (ℕ × (String × String) × ℚ)
  next : ℕ
  past : Past

/-- Nothing was stored yet. -/
def State.start (now : ℚ) (settings : Settings) : State where
  now := now
  settings := settings
  users := []
  issued := []
  revoked := []
  codes := []
  grants := []
  resets := []
  verifications := []
  next := 0
  past := ⟨fun _ => 0, fun _ => 0, fun _ => ⟨0, 0⟩, fun _ => 0, fun _ => false⟩

/-- The hashing of passwords and of the proof keys of a code. -/
structure Hashing where
  hashpw : String → String
  checkpw : String → String → Bool
  challengeFor : String → Option String

namespace State

variable (s : State)

/-! ## Reading -/

def stamp (username : String) : Stamp := ⟨s.past.deletions username, s.past.signOuts username⟩

def sessionEpoch (username : String) : ℕ :=
  ((find s.users username).map Account.sessionEpoch).getD 0

def isRevoked (jti : ℕ) : Bool :=
  match find s.revoked jti with
  | none => false
  | some exp => s.now < exp

def verifyAccessToken (t : Token) : Bool := t ∈ s.issued ∧ s.now < t.exp ∧ s.isRevoked t.jti = false

end State

/-- Why a token is refused. -/
inductive Refusal where
  | invalidToken
  | noUser
  | disabled
  | pending
  | ended

def getCurrentUser (s : State) (t : Token) : Except Refusal Token :=
  if s.verifyAccessToken t = false then .error .invalidToken
  else
    match find s.users t.sub with
    | none => .error .noUser
    | some a =>
      if a.disabled then .error .disabled
      else if a.pendingApproval then .error .pending
      else if t.sep ≠ a.sessionEpoch then .error .ended
      else .ok { t with role := if t.ro then .viewer else a.role }

def userForGrant (s : State) (grant : ℕ) : Option (Grant × Account) :=
  match find s.grants grant with
  | none => none
  | some g =>
    match find s.users g.user with
    | none => none
    | some a =>
      if a.disabled ∨ a.pendingApproval ∨ g.sep ≠ a.sessionEpoch then none else some (g, a)

/-- The entries that have not expired. -/
def live {P : Type*} (now : ℚ) (tokens : List (ℕ × P × ℚ)) : List (ℕ × P × ℚ) :=
  tokens.filter fun e => now < e.2.2

/-- What `consume` returns. -/
def consume {P : Type*} (now : ℚ) (tokens : List (ℕ × P × ℚ)) (token : ℕ) : Option P :=
  (find (live now tokens) token).map Prod.fst

/-! ## Accounts -/

namespace State

variable (s : State)

def update (username : String) (f : Account → Account) : State :=
  match find s.users username with
  | none => s
  | some a => { s with users := put s.users username (f a) }

def createUser (h : Hashing) (username password : String) (role : Role) (email : String)
    (mustChange pending : Bool) : State :=
  match find s.users username with
  | some _ => s
  | none =>
    { s with
      users := put s.users username
        ⟨h.hashpw password, role, email, false, mustChange, pending, false, 0⟩ }

def deleteUser (username : String) : State :=
  match find s.users username with
  | none => s
  | some _ =>
    { s with
      users := erase s.users username
      past := { s.past with
        deletions := Function.update s.past.deletions username (s.past.deletions username + 1) } }

def bumpSessionEpoch (username : String) : State :=
  match find s.users username with
  | none => s
  | some a =>
    { s with
      users := put s.users username { a with sessionEpoch := a.sessionEpoch + 1 }
      past := { s.past with
        signOuts := Function.update s.past.signOuts username (s.past.signOuts username + 1) } }

/-! ## Sessions -/

/-- A new number is given to a credential. -/
def reserve (stamp : Stamp) (signIn : ℕ) : State :=
  { s with
    next := s.next + 1
    past := { s.past with
      stamps := Function.update s.past.stamps s.next stamp
      signIn := Function.update s.past.signIn s.next signIn } }

def mint (t : Token) (signIn : ℕ) : State :=
  { s.reserve (s.stamp t.sub) signIn with issued := t :: s.issued }

end State

def createAccessToken (jti : ℕ) (now lifetime : ℚ) (authTime : Option ℤ) (sub : String) (role : Role)
    (sep : ℕ) (ro : Bool) : Token where
  sub := sub
  role := role
  sep := sep
  ro := ro
  jti := jti
  exp := ⌊now + lifetime⌋
  authTime := authTime.getD ⌊now⌋

namespace State

variable (h : Hashing) (s : State)

/-- The seconds that a token lives. -/
def idleSeconds : ℕ := s.settings.idleMinutes * 60

/-- `_issue_token`, and the same for a client: a sign-in. -/
def issueToken (username : String) (role : Role) (ro : Bool) : State :=
  s.mint (createAccessToken s.next s.now s.idleSeconds none username role (s.sessionEpoch username) ro)
    s.next

def login (username password : String) : State :=
  match find s.users username with
  | none => s
  | some a =>
    if h.checkpw password a.hashedPassword ∧ ¬ a.disabled ∧ ¬ a.pendingApproval then
      s.issueToken username a.role false
    else s

/-- `logout_ep`, with `revoke_token`. -/
def logout (t : Token) : State :=
  match getCurrentUser s t with
  | .error _ => s
  | .ok payload =>
    { s with
      revoked := put (s.revoked.filter fun e => s.now < e.2) payload.jti payload.exp
      past := { s.past with
        ended := Function.update s.past.ended (s.past.signIn t.jti) true } }

def logoutAll (t : Token) : State :=
  match getCurrentUser s t with
  | .error _ => s
  | .ok payload => s.bumpSessionEpoch payload.sub

/-- The time of the sign-in, as `renew_session_cookie` computes it. -/
def authTime (payload : Token) : ℤ :=
  if payload.authTime ≠ 0 then payload.authTime else payload.exp - s.idleSeconds

/-- How long a renewed token lives. -/
def lifetime (payload : Token) : ℚ :=
  min s.idleSeconds (s.authTime payload + (s.settings.maxHours * 3600 : ℕ) - s.now)

/-- The token that `renew_session_cookie` sets, if it sets one; the clock is read again after a
delay. -/
def renewed (t : Token) (delay : ℚ≥0) : Option Token :=
  match getCurrentUser s t with
  | .error _ => none
  | .ok payload =>
    if payload.ro then none
    else if payload.exp - s.now > s.idleSeconds - 60 then none
    else if s.lifetime payload ≤ 60 then none
    else
      some (createAccessToken s.next (s.now + delay) (s.lifetime payload) (some (s.authTime payload))
        payload.sub payload.role payload.sep false)

def renewSessionCookie (t : Token) (delay : ℚ≥0) : State :=
  match s.renewed t delay with
  | none => s
  | some token => { s.mint token (s.past.signIn t.jti) with now := s.now + delay }

/-! ## Clients -/

/-- `authorize_mcp_client`, with `create_code`. -/
def authorizeMcpClient (t : Token) (challenge : String) (readOnly : Bool) : State :=
  match getCurrentUser s t with
  | .error _ => s
  | .ok payload =>
    { s.reserve (s.stamp payload.sub) s.next with
      codes := put (s.codes.filter fun e => s.now < e.2.exp) s.next
        ⟨payload.sub, challenge, readOnly || payload.role = .viewer, s.now + 120⟩ }

/-- The code that `redeem_code` trades for a grant, if it does. -/
def redeemable (code : ℕ) (verifier : String) : Option Code :=
  match find s.codes code with
  | none => none
  | some c =>
    if c.exp ≤ s.now then none
    else if h.challengeFor verifier ≠ some c.challenge then none
    else some c

def redeemCode (code : ℕ) (verifier : String) : State :=
  match s.redeemable h code verifier with
  | none => { s with codes := erase s.codes code }
  | some c =>
    { s.reserve (s.past.stamps code) s.next with
      codes := erase s.codes code
      grants := put s.grants s.next ⟨c.user, c.readOnly, s.sessionEpoch c.user⟩ }

def openMcpSession (grant : ℕ) : State :=
  match userForGrant s grant with
  | none => s
  | some (g, a) => s.issueToken g.user a.role g.readOnly

/-! ## Links -/

def issueReset (username : String) (ttl : ℚ) : State :=
  { s.reserve (s.stamp username) s.next with
    resets := put (live s.now s.resets) s.next (username, s.now + ttl) }

def issueVerification (username email : String) : State :=
  { s.reserve (s.stamp username) s.next with
    verifications := put (live s.now s.verifications) s.next ((username, email), s.now + 3600) }

/-- `forgot_password` and `admin_send_reset`, for one account. -/
def mailResetLink (username : String) : State :=
  match find s.users username with
  | none => s
  | some a =>
    if a.email ≠ "" ∧ ¬ a.disabled ∧ ¬ a.pendingApproval then s.issueReset username 900 else s

/-- `create_user_ep` without a password: the first one is chosen from a link, and the account goes
again if the link cannot be sent. -/
def createWithLink (username password : String) (role : Role) (email : String) (sent : Bool) :
    State :=
  match find s.users username with
  | some _ => s
  | none =>
    let s' := ((s.createUser h username password role email false false).update username fun a =>
      { a with awaitingPassword := true }).issueReset username 86400
    if sent then s' else s'.deleteUser username

/-- The account whose password a link resets, if it does. -/
def resettable (token : ℕ) : Option String :=
  match consume s.now s.resets token with
  | none => none
  | some username =>
    match find s.users username with
    | none => none
    | some a => if a.disabled then none else some username

def resetPassword (token : ℕ) (newPassword : String) : State :=
  if newPassword.length < 8 then s
  else
    let s' := { s with resets := erase (live s.now s.resets) token }
    match s.resettable token with
    | none => s'
    | some username =>
      s'.update username fun a =>
        { a with
          hashedPassword := h.hashpw newPassword
          disabled := false
          mustChangePassword := !a.awaitingPassword
          awaitingPassword := false }

def changeOwnEmail (t : Token) (password email : String) : State :=
  match getCurrentUser s t with
  | .error _ => s
  | .ok payload =>
    match find s.users payload.sub with
    | none => s
    | some a =>
      if h.checkpw password a.hashedPassword = false then s
      else if email = "" then s.update payload.sub fun a => { a with email := "" }
      else if '@' ∉ email.toList then s
      else s.issueVerification payload.sub email

/-- The account and the address that a link confirms, if it does. -/
def verifiable (token : ℕ) : Option (String × String) :=
  match consume s.now s.verifications token with
  | none => none
  | some (username, email) =>
    match find s.users username with
    | none => none
    | some _ => some (username, email)

def verifyEmail (token : ℕ) : State :=
  let s' := { s with verifications := erase (live s.now s.verifications) token }
  match s.verifiable token with
  | none => s'
  | some (username, email) => s'.update username fun a => { a with email := email }

end State

/-! ## Actions -/

inductive Action where
  | wait (time : ℚ≥0)
  | configure (settings : Settings)
  | createUser (username password : String) (role : Role) (email : String)
      (mustChange pending : Bool)
  | createWithLink (username password : String) (role : Role) (email : String) (sent : Bool)
  | deleteUser (username : String)
  | setDisabled (username : String) (disabled : Bool)
  | approve (username : String)
  | login (username password : String)
  | request (t : Token)
  | renew (t : Token) (delay : ℚ≥0)
  | logout (t : Token)
  | logoutAll (t : Token)
  | authorize (t : Token) (challenge : String) (readOnly : Bool)
  | redeem (code : ℕ) (verifier : String)
  | openSession (grant : ℕ)
  | mailResetLink (username : String)
  | resetPassword (token : ℕ) (newPassword : String)
  | changeEmail (t : Token) (password email : String)
  | verifyEmail (token : ℕ)

def step (h : Hashing) (s : State) : Action → State
  | .wait time => { s with now := s.now + time }
  | .configure settings => { s with settings := settings }
  | .createUser username password role email mustChange pending =>
    s.createUser h username password role email mustChange pending
  | .createWithLink username password role email sent =>
    s.createWithLink h username password role email sent
  | .deleteUser username => s.deleteUser username
  | .setDisabled username disabled => s.update username fun a => { a with disabled := disabled }
  | .approve username => s.update username fun a => { a with pendingApproval := false }
  | .login username password => s.login h username password
  | .request _ => s
  | .renew t delay => s.renewSessionCookie t delay
  | .logout t => s.logout t
  | .logoutAll t => s.logoutAll t
  | .authorize t challenge readOnly => s.authorizeMcpClient t challenge readOnly
  | .redeem code verifier => s.redeemCode h code verifier
  | .openSession grant => s.openMcpSession grant
  | .mailResetLink username => s.mailResetLink username
  | .resetPassword token newPassword => s.resetPassword h token newPassword
  | .changeEmail t password email => s.changeOwnEmail h t password email
  | .verifyEmail token => s.verifyEmail token

/-- Passwords and proof keys that are not hashed. -/
def plain : Hashing := ⟨id, fun p q => p = q, some⟩

def firstToken : Token := createAccessToken 0 1000 3600 none "anna" .viewer 0 false

/-! ## When a credential is accepted -/

section Acceptance

variable {h : Hashing} {s : State}

structure Speaks (s : State) (t : Token) (a : Account) : Prop where
  issued : t ∈ s.issued
  unexpired : s.now < t.exp
  unrevoked : s.isRevoked t.jti = false
  account : find s.users t.sub = some a
  enabled : a.disabled = false
  approved : a.pendingApproval = false
  epoch : t.sep = a.sessionEpoch

theorem verifyAccessToken_iff {t : Token} :
    s.verifyAccessToken t = true ↔ t ∈ s.issued ∧ s.now < t.exp ∧ s.isRevoked t.jti = false := by
  rw [State.verifyAccessToken, decide_eq_true_iff]

theorem getCurrentUser_eq_ok {t payload : Token} :
    getCurrentUser s t = .ok payload ↔
      ∃ a, Speaks s t a ∧ payload = { t with role := if t.ro then .viewer else a.role } := by
  rw [getCurrentUser]
  constructor
  · intro hok
    split at hok
    · simp at hok
    · next hverified =>
      obtain ⟨hissued, hexp, hrevoked⟩ :=
        verifyAccessToken_iff.mp (Bool.eq_true_of_not_eq_false hverified)
      split at hok
      · simp at hok
      · next a ha =>
        split at hok
        · simp at hok
        · next henabled =>
          split at hok
          · simp at hok
          · next happroved =>
            split at hok
            · simp at hok
            · next hepoch =>
              refine ⟨a, ⟨hissued, hexp, hrevoked, ha, ?_, ?_, not_not.mp hepoch⟩, ?_⟩
              · exact Bool.eq_false_of_not_eq_true henabled
              · exact Bool.eq_false_of_not_eq_true happroved
              · exact (Except.ok.inj hok).symm
  · rintro ⟨a, ha, rfl⟩
    have hverified := verifyAccessToken_iff.mpr ⟨ha.issued, ha.unexpired, ha.unrevoked⟩
    rw [if_neg (by simp [hverified]), ha.account]
    simp only [ha.enabled, ha.approved, Bool.false_eq_true, if_false]
    rw [if_neg (not_not.mpr ha.epoch)]

theorem renewed_eq_some {t token : Token} {delay : ℚ≥0} (hrenewed : s.renewed t delay = some token) :
    ∃ a, Speaks s t a ∧ t.ro = false ∧ t.exp - s.now ≤ s.idleSeconds - 60 ∧ 60 < s.lifetime t ∧
      token = createAccessToken s.next (s.now + delay) (s.lifetime t) (some (s.authTime t)) t.sub
        a.role t.sep false := by
  rw [State.renewed] at hrenewed
  split at hrenewed
  · simp at hrenewed
  · next payload hpayload =>
    obtain ⟨a, ha, rfl⟩ := getCurrentUser_eq_ok.mp hpayload
    split at hrenewed
    · simp at hrenewed
    · next hro =>
      split at hrenewed
      · simp at hrenewed
      · next hidle =>
        split at hrenewed
        · simp at hrenewed
        · next hlifetime =>
          have hro : t.ro = false := Bool.eq_false_of_not_eq_true hro
          refine ⟨a, ha, hro, not_lt.mp hidle, not_le.mp hlifetime, ?_⟩
          rw [← Option.some.inj hrenewed, hro]
          rfl

theorem userForGrant_eq_some {grant : ℕ} {g : Grant} {a : Account} :
    userForGrant s grant = some (g, a) ↔
      find s.grants grant = some g ∧ find s.users g.user = some a ∧ a.disabled = false ∧
        a.pendingApproval = false ∧ g.sep = a.sessionEpoch := by
  rw [userForGrant]
  split
  · next hnone => simp [hnone]
  · next g' hg' =>
    split
    · next hnone =>
      refine iff_of_false (by simp) ?_
      rintro ⟨hg, ha, -⟩
      obtain rfl := Option.some.inj (hg'.symm.trans hg)
      exact Option.some_ne_none a (ha.symm.trans hnone)
    · next a' ha' =>
      split
      · next hrefused =>
        refine iff_of_false (by simp) ?_
        rintro ⟨hg, ha, henabled, happroved, hepoch⟩
        obtain rfl := Option.some.inj (hg'.symm.trans hg)
        obtain rfl := Option.some.inj (ha'.symm.trans ha)
        simp [henabled, happroved, hepoch] at hrefused
      · next hgood =>
        rw [not_or, not_or, not_not] at hgood
        constructor
        · intro hsome
          obtain ⟨rfl, rfl⟩ := Prod.mk.inj (Option.some.inj hsome)
          exact ⟨hg', ha', Bool.eq_false_of_not_eq_true hgood.1,
            Bool.eq_false_of_not_eq_true hgood.2.1, hgood.2.2⟩
        · rintro ⟨hg, ha, -⟩
          obtain rfl := Option.some.inj (hg'.symm.trans hg)
          obtain rfl := Option.some.inj (ha'.symm.trans ha)
          rfl

theorem redeemable_eq_some {code : ℕ} {verifier : String} {c : Code} :
    s.redeemable h code verifier = some c ↔
      find s.codes code = some c ∧ s.now < c.exp ∧ h.challengeFor verifier = some c.challenge := by
  rw [State.redeemable]
  split
  · next hnone => simp [hnone]
  · next c' hc' =>
    rw [hc', Option.some.injEq]
    split
    · next hexp =>
      refine iff_of_false (by simp) ?_
      rintro ⟨rfl, hnow, -⟩
      exact absurd hexp (not_le.mpr hnow)
    · next hexp =>
      split
      · next hverifier =>
        refine iff_of_false (by simp) ?_
        rintro ⟨rfl, -, hmatch⟩
        exact hverifier hmatch
      · next hverifier =>
        rw [Option.some.injEq]
        constructor
        · rintro rfl
          exact ⟨rfl, not_le.mp hexp, not_not.mp hverifier⟩
        · exact fun hc => hc.1

theorem resettable_eq_some {token : ℕ} {username : String} :
    s.resettable token = some username ↔
      consume s.now s.resets token = some username ∧
        ∃ a, find s.users username = some a ∧ a.disabled = false := by
  rw [State.resettable]
  split
  · next hnone => simp [hnone]
  · next u hu =>
    rw [hu, Option.some.injEq]
    split
    · next hnone =>
      refine iff_of_false (by simp) ?_
      rintro ⟨rfl, a, ha, -⟩
      exact Option.some_ne_none a (ha.symm.trans hnone)
    · next a ha =>
      split
      · next hdisabled =>
        refine iff_of_false (by simp) ?_
        rintro ⟨rfl, b, hb, henabled⟩
        obtain rfl := Option.some.inj (ha.symm.trans hb)
        rw [hdisabled] at henabled
        exact Bool.noConfusion henabled
      · next henabled =>
        rw [Option.some.injEq]
        constructor
        · rintro rfl
          exact ⟨rfl, a, ha, Bool.eq_false_of_not_eq_true henabled⟩
        · exact fun hu => hu.1

theorem verifiable_eq_some {token : ℕ} {x : String × String} :
    s.verifiable token = some x ↔
      consume s.now s.verifications token = some x ∧ ∃ a, find s.users x.1 = some a := by
  rw [State.verifiable]
  split
  · next hnone => simp [hnone]
  · next u email hu =>
    rw [hu, Option.some.injEq]
    split
    · next hnone =>
      refine iff_of_false (by simp) ?_
      rintro ⟨rfl, a, ha⟩
      exact Option.some_ne_none a (ha.symm.trans hnone)
    · next a ha =>
      rw [Option.some.injEq]
      constructor
      · rintro rfl
        exact ⟨rfl, a, ha⟩
      · exact fun hu => hu.1

end Acceptance

end SentinelNet.Sessions
