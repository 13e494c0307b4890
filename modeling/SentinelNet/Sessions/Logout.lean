import SentinelNet.Sessions.Frames

/-!
# The end of a session

A sign-in has many tokens: while the operator is at work, `renew_session_cookie` replaces the token
of the cookie once a minute, and the one that was replaced stays good until it expires.
`logout_ep` revokes the token that it is called with, and no other.

* `run_ends_iff`: the actions of a run do what `Ends` says exactly if they meet `Last`.
-/

namespace SentinelNet.Sessions

open Assoc StepRuns

/-! ## The law -/

def State.signInOf (s : State) (t : Token) : ℕ := s.past.signIn t.jti

/-- No token of a session that was logged out is accepted. -/
def SessionsEnded (s : State) : Prop :=
  ∀ t ∈ s.issued, s.past.ended (s.signInOf t) = true → ∀ payload, getCurrentUser s t ≠ .ok payload

/-- The end of the hours of a session. -/
def State.cap (s : State) (t : Token) : ℤ := s.authTime t + (s.settings.maxHours * 3600 : ℕ)

structure Ends (h : Hashing) (s : State) (act : Action) : Prop where
  ended : SessionsEnded (step h s act)
  others : ∀ t, act = .logout t → ∀ t' ∈ s.issued, s.signInOf t' ≠ s.signInOf t →
    ∀ payload, getCurrentUser s t' = .ok payload → getCurrentUser (step h s act) t' = .ok payload
  capped : ∀ t delay, act = .renew t delay → ∀ token, s.renewed t delay = some token →
    token.exp ≤ token.authTime + (s.settings.maxHours * 3600 : ℕ)

/-- A logout is made with the last token of its session that is still good, and between the two
readings of the clock a renewal takes less than a second and what the hours leave of the session
beyond the new token. -/
structure Last (s : State) (act : Action) : Prop where
  logout : ∀ t, act = .logout t → (∃ a, Speaks s t a) → ∀ t' ∈ s.issued,
    s.signInOf t' = s.signInOf t → t' ≠ t → t'.exp ≤ s.now ∨ s.isRevoked t'.jti = true
  renewal : ∀ t delay, act = .renew t delay → (s.renewed t delay).isSome = true →
    (delay : ℚ) < 1 + max 0 (s.cap t - s.now - s.idleSeconds)

/-! ## The tokens of a sign-in -/

section Families

variable {h : Hashing} {s s' : State}

/-- The tokens that were issued, the sign-ins they come from, and the revoked ones. -/
structure Family (s : State) : Prop where
  jti : ∀ t ∈ s.issued, t.jti < s.next
  signIn : ∀ t ∈ s.issued, s.signInOf t < s.next
  ended : ∀ n, s.past.ended n = true → n < s.next
  revoked : ∀ e ∈ s.revoked, e.1 < s.next
  distinct : ∀ t ∈ s.issued, ∀ t' ∈ s.issued, t.jti = t'.jti → t = t'
  subject : ∀ t ∈ s.issued, ∀ t' ∈ s.issued, s.signInOf t = s.signInOf t' →
    t.sub = t'.sub ∧ t.sep = t'.sep
  expiry : ∀ e ∈ s.revoked, ∀ t ∈ s.issued, e.1 = t.jti → e.2 = t.exp
  closed : ∀ t ∈ s.issued, s.past.ended (s.signInOf t) = true →
    (t.exp : ℚ) ≤ s.now ∨ (t.jti, t.exp) ∈ s.revoked

theorem family_start (now : ℚ) (settings : Settings) : Family (State.start now settings) where
  jti _ ht := nomatch ht
  signIn _ ht := nomatch ht
  ended _ hn := absurd hn Bool.false_ne_true
  revoked _ he := nomatch he
  distinct _ ht := nomatch ht
  subject _ ht := nomatch ht
  expiry _ he := nomatch he
  closed _ ht := nomatch ht

variable {t : Token}

theorem isRevoked_iff (hexpiry : ∀ e ∈ s.revoked, e.1 = t.jti → e.2 = t.exp)
    (hexp : s.now < t.exp) : s.isRevoked t.jti = true ↔ (t.jti, t.exp) ∈ s.revoked := by
  rw [State.isRevoked]
  cases hfind : find s.revoked t.jti with
  | none =>
    refine iff_of_false Bool.false_ne_true fun hmem => ?_
    exact find_ne_none hmem hfind
  | some exp =>
    have hmem := mem_of_find hfind
    have heq : exp = t.exp := hexpiry _ hmem rfl
    rw [heq] at hmem ⊢
    exact iff_of_true (decide_eq_true hexp) hmem

theorem Family.sessionsEnded (hs : Family s) : SessionsEnded s := by
  intro t ht hended payload hpayload
  obtain ⟨a, ha, -⟩ := getCurrentUser_eq_ok.mp hpayload
  rcases hs.closed t ht hended with hexp | hrevoked
  · exact absurd ha.unexpired (not_lt.mpr hexp)
  · have htrue := (isRevoked_iff (fun e he => hs.expiry e he t ht) ha.unexpired).mpr hrevoked
    rw [ha.unrevoked] at htrue
    exact Bool.false_ne_true htrue

theorem Family.same (hs : Family s) (hlater : Later s s') (hissued : s'.issued = s.issued)
    (hrevoked : s'.revoked = s.revoked) (hended : s'.past.ended = s.past.ended)
    (hnow : s.now ≤ s'.now) : Family s' := by
  have hsignIn : ∀ t ∈ s.issued, s'.signInOf t = s.signInOf t :=
    fun t ht => hlater.signIn t.jti (hs.jti t ht)
  refine ⟨?_, ?_, ?_, ?_, ?_, ?_, ?_, ?_⟩
  · rw [hissued]
    exact fun t ht => (hs.jti t ht).trans_le hlater.next
  · rw [hissued]
    intro t ht
    rw [hsignIn t ht]
    exact (hs.signIn t ht).trans_le hlater.next
  · rw [hended]
    exact fun n hn => (hs.ended n hn).trans_le hlater.next
  · rw [hrevoked]
    exact fun e he => (hs.revoked e he).trans_le hlater.next
  · rw [hissued]
    exact hs.distinct
  · rw [hissued]
    intro t ht t' ht' hsame
    rw [hsignIn t ht, hsignIn t' ht'] at hsame
    exact hs.subject t ht t' ht' hsame
  · rw [hissued, hrevoked]
    exact hs.expiry
  · rw [hissued, hrevoked, hended]
    intro t ht hclosed
    rw [hsignIn t ht] at hclosed
    exact (hs.closed t ht hclosed).imp_left fun hexp => hexp.trans hnow

theorem Family.mint (hs : Family s) {signIn : ℕ} (hjti : t.jti = s.next)
    (hsignIn : signIn = s.next ∨ s.past.ended signIn = false ∧
      ∃ t₀ ∈ s.issued, s.signInOf t₀ = signIn ∧ t₀.sub = t.sub ∧ t₀.sep = t.sep) :
    Family (s.mint t signIn) := by
  have hold : ∀ t' ∈ s.issued, (s.mint t signIn).signInOf t' = s.signInOf t' :=
    fun t' ht' => (Later.reserve (s.stamp t.sub) signIn).signIn t'.jti (hs.jti t' ht')
  have hnew : (s.mint t signIn).signInOf t = signIn := by
    show Function.update s.past.signIn s.next signIn t.jti = signIn
    rw [hjti, Function.update_self]
  have hlt : signIn < s.next + 1 := by
    rcases hsignIn with rfl | ⟨-, t₀, ht₀, rfl, -⟩
    · exact Nat.lt_succ_self _
    · exact Nat.lt_succ_of_lt (hs.signIn t₀ ht₀)
  have hopen : s.past.ended signIn = false := by
    rcases hsignIn with rfl | ⟨hopen, -⟩
    · by_contra hended
      exact (hs.ended _ (Bool.eq_true_of_not_eq_false hended)).false
    · exact hopen
  have hsubject : ∀ t' ∈ s.issued, s.signInOf t' = signIn → t'.sub = t.sub ∧ t'.sep = t.sep := by
    intro t' ht' hsame
    rcases hsignIn with rfl | ⟨-, t₀, ht₀, hsame₀, hsub, hsep⟩
    · exact absurd hsame (hs.signIn t' ht').ne
    · obtain ⟨hsub', hsep'⟩ := hs.subject t' ht' t₀ ht₀ (hsame.trans hsame₀.symm)
      exact ⟨hsub'.trans hsub, hsep'.trans hsep⟩
  refine ⟨?_, ?_, ?_, ?_, ?_, ?_, ?_, ?_⟩
  · intro t' ht'
    rcases List.mem_cons.mp ht' with rfl | ht'
    · exact hjti.trans_lt (Nat.lt_succ_self _)
    · exact Nat.lt_succ_of_lt (hs.jti t' ht')
  · intro t' ht'
    rcases List.mem_cons.mp ht' with rfl | ht'
    · rw [hnew]
      exact hlt
    · rw [hold t' ht']
      exact Nat.lt_succ_of_lt (hs.signIn t' ht')
  · exact fun n hn => Nat.lt_succ_of_lt (hs.ended n hn)
  · exact fun e he => Nat.lt_succ_of_lt (hs.revoked e he)
  · intro t₁ ht₁ t₂ ht₂ hsame
    rcases List.mem_cons.mp ht₁ with h₁ | h₁
    · rcases List.mem_cons.mp ht₂ with h₂ | h₂
      · exact h₁.trans h₂.symm
      · rw [h₁, hjti] at hsame
        exact absurd hsame.symm (hs.jti t₂ h₂).ne
    · rcases List.mem_cons.mp ht₂ with h₂ | h₂
      · rw [h₂, hjti] at hsame
        exact absurd hsame (hs.jti t₁ h₁).ne
      · exact hs.distinct t₁ h₁ t₂ h₂ hsame
  · intro t₁ ht₁ t₂ ht₂ hsame
    rcases List.mem_cons.mp ht₁ with h₁ | h₁
    · rcases List.mem_cons.mp ht₂ with h₂ | h₂
      · rw [h₁, h₂]
        exact ⟨rfl, rfl⟩
      · rw [h₁, hnew, hold t₂ h₂] at hsame
        rw [h₁]
        exact (hsubject t₂ h₂ hsame.symm).imp Eq.symm Eq.symm
    · rcases List.mem_cons.mp ht₂ with h₂ | h₂
      · rw [h₂, hnew, hold t₁ h₁] at hsame
        rw [h₂]
        exact hsubject t₁ h₁ hsame
      · rw [hold t₁ h₁, hold t₂ h₂] at hsame
        exact hs.subject t₁ h₁ t₂ h₂ hsame
  · intro e he t' ht' hsame
    rcases List.mem_cons.mp ht' with rfl | ht'
    · exact absurd (hsame.trans hjti) (hs.revoked e he).ne
    · exact hs.expiry e he t' ht' hsame
  · intro t' ht' hended
    rcases List.mem_cons.mp ht' with rfl | ht'
    · rw [hnew] at hended
      exact absurd (hopen.symm.trans hended) Bool.false_ne_true
    · rw [hold t' ht'] at hended
      exact hs.closed t' ht' hended

variable {a : Account}

theorem Family.open_of_speaks (hs : Family s) (ha : Speaks s t a) :
    s.past.ended (s.signInOf t) = false := by
  by_contra hended
  exact hs.sessionsEnded t ha.issued (Bool.eq_true_of_not_eq_false hended) _
    (getCurrentUser_eq_ok.mpr ⟨a, ha, rfl⟩)

/-! ## A logout -/

theorem logout_eq (ha : Speaks s t a) :
    s.logout t = { s with
      revoked := put (s.revoked.filter fun e => s.now < e.2) t.jti t.exp
      past := { s.past with ended := Function.update s.past.ended (s.signInOf t) true } } := by
  rw [State.logout, getCurrentUser_eq_ok.mpr ⟨a, ha, rfl⟩]
  rfl

variable {t' : Token}

section

variable (hs : Family s) (ha : Speaks s t a)

include hs ha

/-- A token that has not expired is revoked after a logout exactly if it was before, or is the one
of the logout. -/
theorem Family.mem_revoked_logout (ht' : t' ∈ s.issued) (hexp : s.now < t'.exp) :
    (t'.jti, t'.exp) ∈ (s.logout t).revoked ↔ t' = t ∨ (t'.jti, t'.exp) ∈ s.revoked := by
  rw [logout_eq ha]
  constructor
  · intro hmem
    rcases mem_put hmem with heq | hmem
    · exact Or.inl (hs.distinct t' ht' t ha.issued (congrArg Prod.fst heq))
    · exact Or.inr (List.mem_of_mem_filter hmem)
  · rintro (rfl | hmem)
    · exact mem_put_self _ _ _
    · by_cases hsame : t'.jti = t.jti
      · rw [hs.distinct t' ht' t ha.issued hsame]
        exact mem_put_self _ _ _
      · exact mem_put_of_ne (List.mem_filter.mpr ⟨hmem, decide_eq_true hexp⟩) hsame _

theorem Family.expiry_logout (ht' : t' ∈ s.issued) :
    ∀ e ∈ (s.logout t).revoked, e.1 = t'.jti → e.2 = t'.exp := by
  rw [logout_eq ha]
  intro e he hsame
  rcases mem_put he with rfl | he
  · exact congrArg Token.exp (hs.distinct t ha.issued t' ht' hsame)
  · exact hs.expiry e (List.mem_of_mem_filter he) t' ht' hsame

theorem Family.speaks_logout {b : Account} (hb : Speaks s t' b) (hne : t' ≠ t) :
    Speaks (s.logout t) t' b := by
  have hexpiry := hs.expiry_logout ha hb.issued
  have hmem := hs.mem_revoked_logout ha hb.issued hb.unexpired
  have hold := hb.unrevoked
  rw [logout_eq ha] at hexpiry hmem ⊢
  refine { hb with unrevoked := ?_ }
  by_contra hrevoked
  have hrevoked := (isRevoked_iff hexpiry hb.unexpired).mp (Bool.eq_true_of_not_eq_false hrevoked)
  rcases hmem.mp hrevoked with heq | hrevoked
  · exact hne heq
  · have htrue := (isRevoked_iff (fun e he => hs.expiry e he t' hb.issued) hb.unexpired).mpr hrevoked
    exact Bool.false_ne_true (hold.symm.trans htrue)

theorem Family.logout
    (hlast : ∀ t' ∈ s.issued, s.signInOf t' = s.signInOf t → t' ≠ t → t'.exp ≤ s.now ∨ s.isRevoked t'.jti = true) :
    Family (s.logout t) := by
  have hrevoked := fun t' ht' => @Family.mem_revoked_logout s t a t' hs ha ht'
  have hexpiry := fun t' ht' => @Family.expiry_logout s t a t' hs ha ht'
  rw [logout_eq ha] at hrevoked hexpiry ⊢
  refine ⟨hs.jti, hs.signIn, fun n hn => ?_, fun e he => ?_, hs.distinct, hs.subject,
    fun e he t' ht' => hexpiry t' ht' e he, fun t' ht' hended => ?_⟩
  · by_cases hsame : n = s.signInOf t
    · rw [hsame]
      exact hs.signIn t ha.issued
    · exact hs.ended n ((Function.update_of_ne hsame true s.past.ended).symm.trans hn)
  · rcases mem_put he with rfl | he
    · exact hs.jti t ha.issued
    · exact hs.revoked e (List.mem_of_mem_filter he)
  · rcases le_or_gt (t'.exp : ℚ) s.now with hexp | hexp
    · exact Or.inl hexp
    · right
      refine (hrevoked t' ht' hexp).mpr ?_
      by_cases hsame : s.signInOf t' = s.signInOf t
      · by_cases heq : t' = t
        · exact Or.inl heq
        · right
          rcases hlast t' ht' hsame heq with hold | hold
          · exact absurd hexp (not_lt.mpr hold)
          · exact (isRevoked_iff (fun e he => hs.expiry e he t' ht') hexp).mp hold
      · have hended : s.past.ended (s.signInOf t') = true :=
          (Function.update_of_ne hsame true s.past.ended).symm.trans hended
        exact Or.inr ((hs.closed t' ht' hended).resolve_left (not_le.mpr hexp))

theorem Family.last_of_sessionsEnded (hended : SessionsEnded (s.logout t)) (ht' : t' ∈ s.issued)
    (hsame : s.signInOf t' = s.signInOf t) (hne : t' ≠ t) :
    t'.exp ≤ s.now ∨ s.isRevoked t'.jti = true := by
  by_contra hgood
  rw [not_or, not_le, Bool.not_eq_true] at hgood
  obtain ⟨hsub, hsep⟩ := hs.subject t' ht' t ha.issued hsame
  have hb : Speaks s t' a := ⟨ht', hgood.1, hgood.2, hsub ▸ ha.account, ha.enabled, ha.approved,
    hsep.trans ha.epoch⟩
  have hafter := hs.speaks_logout ha hb hne
  refine hended t' hafter.issued ?_ _ (getCurrentUser_eq_ok.mpr ⟨a, hafter, rfl⟩)
  rw [logout_eq ha]
  show Function.update s.past.ended (s.signInOf t) true (s.signInOf t') = true
  rw [hsame, Function.update_self]

end

theorem Family.others_logout (hs : Family s) {payload : Token}
    (hother : s.signInOf t' ≠ s.signInOf t) (hok : getCurrentUser s t' = .ok payload) :
    getCurrentUser (s.logout t) t' = .ok payload := by
  obtain ⟨b, hb, rfl⟩ := getCurrentUser_eq_ok.mp hok
  cases hlogout : getCurrentUser s t with
  | error e =>
    rw [State.logout, hlogout]
    exact hok
  | ok p =>
    obtain ⟨a, ha, -⟩ := getCurrentUser_eq_ok.mp hlogout
    refine getCurrentUser_eq_ok.mpr ⟨b, hs.speaks_logout ha hb ?_, rfl⟩
    rintro rfl
    exact hother rfl

/-! ## A renewal -/

/-- A renewed token expires within the hours of its session exactly if the second reading of the
clock is not too late. -/
theorem exp_renewed_le_iff {token : Token} {delay : ℚ≥0} (htoken : s.renewed t delay = some token) :
    token.exp ≤ token.authTime + (s.settings.maxHours * 3600 : ℕ) ↔
      (delay : ℚ) < 1 + max 0 (s.cap t - s.now - s.idleSeconds) := by
  obtain ⟨a, -, -, -, -, rfl⟩ := renewed_eq_some htoken
  show ⌊s.now + delay + s.lifetime t⌋ ≤ s.cap t ↔ _
  have hlifetime : s.lifetime t = min (s.idleSeconds : ℚ) (s.cap t - s.now) := by
    rw [State.lifetime, State.cap]
    push_cast
    rfl
  rw [Int.floor_le_iff, hlifetime]
  rcases le_total (s.idleSeconds : ℚ) (s.cap t - s.now) with hle | hle
  · rw [min_eq_left hle, max_eq_right (by linarith)]
    constructor
    · intro h
      linarith
    · intro h
      linarith
  · rw [min_eq_right hle, max_eq_left (by linarith)]
    constructor
    · intro h
      linarith
    · intro h
      linarith

/-! ## Steps and runs -/

theorem Family.step (hs : Family s) {act : Action} (hlast : Last s act) :
    Family (step h s act) := by
  by_cases hact : Keeping act
  · have hkeeps : Keeps s (Sessions.step h s act) := keeps_step hact
    exact hs.same hkeeps.toLater hkeeps.issued hkeeps.revoked hkeeps.ended hkeeps.now.ge
  cases act with
  | wait time =>
    refine hs.same (Later.of_eq rfl rfl rfl rfl rfl rfl) rfl rfl rfl ?_
    exact le_add_of_nonneg_right time.2
  | configure settings => exact hs.same (Later.of_eq rfl rfl rfl rfl rfl rfl) rfl rfl rfl le_rfl
  | login username password =>
    rw [Sessions.step, State.login]
    split
    · exact hs
    · split
      · exact hs.mint rfl (Or.inl rfl)
      · exact hs
  | openSession n =>
    rw [Sessions.step, State.openMcpSession]
    split
    · exact hs
    · exact hs.mint rfl (Or.inl rfl)
  | renew t delay =>
    rw [Sessions.step, State.renewSessionCookie]
    split
    · exact hs
    · next token htoken =>
      obtain ⟨a, ha, -, -, -, rfl⟩ := renewed_eq_some htoken
      have hminted := hs.mint (t := createAccessToken s.next (s.now + delay) (s.lifetime t)
        (some (s.authTime t)) t.sub a.role t.sep false) rfl
        (Or.inr ⟨hs.open_of_speaks ha, t, ha.issued, rfl, rfl, rfl⟩)
      exact hminted.same (Later.of_eq rfl rfl rfl rfl rfl rfl) rfl rfl rfl
        (le_add_of_nonneg_right delay.2)
  | logout t =>
    cases hok : getCurrentUser s t with
    | error e =>
      rw [Sessions.step, State.logout, hok]
      exact hs
    | ok payload =>
      obtain ⟨a, ha, -⟩ := getCurrentUser_eq_ok.mp hok
      exact hs.logout ha (hlast.logout t rfl ⟨a, ha⟩)
  | authorize t challenge readOnly =>
    rw [Sessions.step, State.authorizeMcpClient]
    split
    · exact hs
    · exact hs.same ((Later.reserve _ _).trans (Later.clients (s.reserve _ s.next) _ _)) rfl rfl rfl
        le_rfl
  | redeem n verifier =>
    rw [Sessions.step, State.redeemCode]
    split
    · exact hs.same (Later.of_eq rfl rfl rfl rfl rfl rfl) rfl rfl rfl le_rfl
    · exact hs.same ((Later.reserve _ _).trans (Later.clients (s.reserve _ s.next) _ _)) rfl rfl rfl
        le_rfl
  | _ => exact absurd trivial hact

/-- An action ends sessions as it should exactly if a logout is made with the last good token and
the clock is read in time. -/
theorem ends_iff_last (hs : Family s) (act : Action) : Ends h s act ↔ Last s act := by
  constructor
  · intro hends
    refine ⟨?_, ?_⟩
    · rintro t rfl ⟨a, ha⟩ t' ht' hsame hne
      exact hs.last_of_sessionsEnded ha hends.ended ht' hsame hne
    · rintro t delay rfl hsome
      obtain ⟨token, htoken⟩ := Option.isSome_iff_exists.mp hsome
      exact (exp_renewed_le_iff htoken).mp (hends.capped t delay rfl token htoken)
  · intro hlast
    refine ⟨(hs.step hlast).sessionsEnded, ?_, ?_⟩
    · rintro t rfl t' - hother payload hok
      exact hs.others_logout hother hok
    · rintro t delay rfl token htoken
      refine (exp_renewed_le_iff htoken).mpr (hlast.renewal t delay rfl ?_)
      rw [htoken]
      rfl

/-- The actions of a run end sessions as they should exactly if every logout is made with the last
good token of its session and every renewal reads the clock in time. -/
theorem run_ends_iff (h : Hashing) (now : ℚ) (settings : Settings) (acts : List Action) (s : State) :
    Run (step h) (Ends h) (State.start now settings) acts s ↔
      Run (step h) Last (State.start now settings) acts s := by
  constructor
  · exact fun hrun => hrun.mono (I := Family)
      (fun s act hs hact => hs.step ((ends_iff_last hs act).mp hact))
      (fun s act hs hact => (ends_iff_last hs act).mp hact) (family_start now settings)
  · exact fun hrun => hrun.mono (I := Family) (fun s act hs hact => hs.step hact)
      (fun s act hs hact => (ends_iff_last hs act).mpr hact) (family_start now settings)

end Families

/-! ## The token that was renewed -/

/-- The token that replaces the first one after two minutes. -/
def secondToken : Token := createAccessToken 1 1120 3600 (some 1000) "anna" .viewer 0 false

def renewedAndLoggedOut : List Action :=
  [.createUser "anna" "cisco123" .viewer "" false false,
    .login "anna" "cisco123",
    .wait 120,
    .renew firstToken 0,
    .logout secondToken]

/-- The token that was renewed is accepted after the logout. -/
theorem renewedAndLoggedOut_not_ended :
    ¬ SessionsEnded (renewedAndLoggedOut.foldl (step plain) (State.start 1000 ⟨60, 12⟩)) := by
  intro hended
  refine hended firstToken (by decide +kernel) (by decide +kernel) firstToken
    (getCurrentUser_eq_ok.mpr ⟨⟨"cisco123", .viewer, "", false, false, false, false, 0⟩, ?_, rfl⟩)
  constructor
  · decide +kernel
  · decide +kernel
  · decide +kernel
  · decide +kernel
  · rfl
  · rfl
  · rfl

end SentinelNet.Sessions
