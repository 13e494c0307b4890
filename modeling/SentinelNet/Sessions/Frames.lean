import SentinelNet.Sessions.Accounts

/-!
# What actions leave alone

Most actions write accounts and links only.

* `keeps_step`: the actions that keep them.
-/

namespace SentinelNet.Sessions

open Assoc

variable {h : Hashing} {s s' s'' : State}

/-! ## Later states -/

variable {h : Hashing} {s s' s'' : State}

/-- A state that comes after another one: numbers keep what is known of them, a name that was not
deleted in between keeps its account, and the epoch of the account follows its sign-outs. -/
structure Later (s s' : State) : Prop where
  next : s.next ≤ s'.next
  stamps : ∀ n < s.next, s'.past.stamps n = s.past.stamps n
  signIn : ∀ n < s.next, s'.past.signIn n = s.past.signIn n
  accounts : ∀ username, s.past.deletions username < s'.past.deletions username ∨
    s'.past.deletions username = s.past.deletions username ∧
      ∀ a, find s.users username = some a → ∃ a', find s'.users username = some a' ∧
        a'.sessionEpoch + s.past.signOuts username = a.sessionEpoch + s'.past.signOuts username

theorem Later.of_eq (hnext : s'.next = s.next) (husers : s'.users = s.users)
    (hstamps : s'.past.stamps = s.past.stamps) (hsignIn : s'.past.signIn = s.past.signIn)
    (hdeletions : s'.past.deletions = s.past.deletions)
    (hsignOuts : s'.past.signOuts = s.past.signOuts) : Later s s' where
  next := hnext.ge
  stamps n _ := by rw [hstamps]
  signIn n _ := by rw [hsignIn]
  accounts username := by
    rw [husers, hdeletions, hsignOuts]
    exact Or.inr ⟨rfl, fun a ha => ⟨a, ha, rfl⟩⟩

theorem Later.trans (h : Later s s') (h' : Later s' s'') : Later s s'' where
  next := h.next.trans h'.next
  stamps n hn := (h'.stamps n (hn.trans_le h.next)).trans (h.stamps n hn)
  signIn n hn := (h'.signIn n (hn.trans_le h.next)).trans (h.signIn n hn)
  accounts username := by
    rcases h.accounts username with hlt | ⟨heq, haccount⟩
    · left
      rcases h'.accounts username with hlt' | ⟨heq', -⟩
      · exact hlt.trans hlt'
      · exact hlt.trans_eq heq'.symm
    · rcases h'.accounts username with hlt' | ⟨heq', haccount'⟩
      · exact Or.inl (heq ▸ hlt')
      · refine Or.inr ⟨heq'.trans heq, fun a ha => ?_⟩
        obtain ⟨a', ha', hepoch⟩ := haccount a ha
        obtain ⟨a'', ha'', hepoch'⟩ := haccount' a' ha'
        exact ⟨a'', ha'', by omega⟩

theorem Later.reserve (stamp : Stamp) (signIn : ℕ) : Later s (s.reserve stamp signIn) where
  next := Nat.le_succ _
  stamps _ hn := Function.update_of_ne hn.ne _ _
  signIn _ hn := Function.update_of_ne hn.ne _ _
  accounts _ := Or.inr ⟨rfl, fun a ha => ⟨a, ha, rfl⟩⟩

theorem Later.clients (s : State) (codes : List (ℕ × Code)) (grants : List (ℕ × Grant)) :
    Later s { s with codes := codes, grants := grants } := Later.of_eq rfl rfl rfl rfl rfl rfl

/-! ## States with the same credentials -/

/-- A later state with the same tokens, grants and codes. -/
structure Keeps (s s' : State) : Prop extends Later s s' where
  now : s'.now = s.now
  settings : s'.settings = s.settings
  issued : s'.issued = s.issued
  revoked : s'.revoked = s.revoked
  ended : s'.past.ended = s.past.ended
  grants : s'.grants = s.grants
  codes : s'.codes = s.codes

theorem Keeps.refl (s : State) : Keeps s s where
  toLater := Later.of_eq rfl rfl rfl rfl rfl rfl
  now := rfl
  settings := rfl
  issued := rfl
  revoked := rfl
  ended := rfl
  grants := rfl
  codes := rfl

theorem Keeps.trans (h : Keeps s s') (h' : Keeps s' s'') : Keeps s s'' where
  toLater := h.toLater.trans h'.toLater
  now := h'.now.trans h.now
  settings := h'.settings.trans h.settings
  issued := h'.issued.trans h.issued
  revoked := h'.revoked.trans h.revoked
  ended := h'.ended.trans h.ended
  grants := h'.grants.trans h.grants
  codes := h'.codes.trans h.codes

/-! ## Actions -/

theorem Keeps.writeAccounts {users : List (String × Account)} {deletions signOuts : String → ℕ}
    (h : ∀ username, s.past.deletions username < deletions username ∨
      deletions username = s.past.deletions username ∧
        ∀ a, find s.users username = some a → ∃ a', find users username = some a' ∧
          a'.sessionEpoch + s.past.signOuts username = a.sessionEpoch + signOuts username) :
    Keeps s { s with
      users := users
      past := { s.past with deletions := deletions, signOuts := signOuts } } where
  next := le_rfl
  stamps _ _ := rfl
  signIn _ _ := rfl
  accounts := h
  now := rfl
  settings := rfl
  issued := rfl
  revoked := rfl
  ended := rfl
  grants := rfl
  codes := rfl

theorem Keeps.update (username : String) (f : Account → Account)
    (hf : ∀ a, (f a).sessionEpoch = a.sessionEpoch) : Keeps s (s.update username f) := by
  rw [State.update]
  split
  · exact Keeps.refl s
  · next a ha =>
    refine Keeps.writeAccounts fun u => Or.inr ⟨rfl, fun b hb => ?_⟩
    by_cases hu : username = u
    · subst hu
      obtain rfl := Option.some.inj (ha.symm.trans hb)
      exact ⟨f a, by rw [find_put, if_pos rfl], by rw [hf]⟩
    · exact ⟨b, by rw [find_put, if_neg hu, hb], rfl⟩

theorem Keeps.createUser (username password : String) (role : Role) (email : String)
    (mustChange pending : Bool) :
    Keeps s (s.createUser h username password role email mustChange pending) := by
  rw [State.createUser]
  split
  · exact Keeps.refl s
  · next hnone =>
    refine Keeps.writeAccounts fun u => Or.inr ⟨rfl, fun b hb => ?_⟩
    have hu : username ≠ u := by
      rintro rfl
      exact Option.some_ne_none b (hb.symm.trans hnone)
    exact ⟨b, by rw [find_put, if_neg hu, hb], rfl⟩

theorem Keeps.deleteUser (username : String) : Keeps s (s.deleteUser username) := by
  rw [State.deleteUser]
  split
  · exact Keeps.refl s
  · refine Keeps.writeAccounts fun u => ?_
    by_cases hu : u = username
    · left
      rw [hu, Function.update_self]
      exact Nat.lt_succ_self _
    · refine Or.inr ⟨Function.update_of_ne hu _ _, fun b hb => ⟨b, ?_, rfl⟩⟩
      rw [find_erase, if_neg (Ne.symm hu), hb]

theorem Keeps.bumpSessionEpoch (username : String) : Keeps s (s.bumpSessionEpoch username) := by
  rw [State.bumpSessionEpoch]
  split
  · exact Keeps.refl s
  · next a ha =>
    refine Keeps.writeAccounts fun u => Or.inr ⟨rfl, fun b hb => ?_⟩
    by_cases hu : username = u
    · subst hu
      obtain rfl := Option.some.inj (ha.symm.trans hb)
      refine ⟨{ a with sessionEpoch := a.sessionEpoch + 1 }, by rw [find_put, if_pos rfl], ?_⟩
      rw [Function.update_self]
      show a.sessionEpoch + 1 + s.past.signOuts username =
        a.sessionEpoch + (s.past.signOuts username + 1)
      omega
    · exact ⟨b, by rw [find_put, if_neg hu, hb], by rw [Function.update_of_ne (Ne.symm hu)]⟩

theorem Keeps.issueReset (username : String) (ttl : ℚ) : Keeps s (s.issueReset username ttl) where
  toLater := (Later.reserve _ _).trans (Later.of_eq rfl rfl rfl rfl rfl rfl)
  now := rfl
  settings := rfl
  issued := rfl
  revoked := rfl
  ended := rfl
  grants := rfl
  codes := rfl

theorem Keeps.issueVerification (username email : String) :
    Keeps s (s.issueVerification username email) where
  toLater := (Later.reserve _ _).trans (Later.of_eq rfl rfl rfl rfl rfl rfl)
  now := rfl
  settings := rfl
  issued := rfl
  revoked := rfl
  ended := rfl
  grants := rfl
  codes := rfl

theorem Keeps.links (s : State) (resets : List (ℕ × String × ℚ))
    (verifications : List (ℕ × (String × String) × ℚ)) :
    Keeps s { s with resets := resets, verifications := verifications } where
  toLater := Later.of_eq rfl rfl rfl rfl rfl rfl
  now := rfl
  settings := rfl
  issued := rfl
  revoked := rfl
  ended := rfl
  grants := rfl
  codes := rfl

/-- The actions that keep tokens, grants and codes. -/
def Keeping : Action → Prop
  | .createUser _ _ _ _ _ _ => True
  | .createWithLink _ _ _ _ _ => True
  | .deleteUser _ => True
  | .setDisabled _ _ => True
  | .approve _ => True
  | .request _ => True
  | .logoutAll _ => True
  | .mailResetLink _ => True
  | .resetPassword _ _ => True
  | .changeEmail _ _ _ => True
  | .verifyEmail _ => True
  | _ => False

theorem keeps_step {act : Action} (hact : Keeping act) : Keeps s (step h s act) := by
  cases act with
  | createUser username password role email mustChange pending =>
    exact Keeps.createUser username password role email mustChange pending
  | createWithLink username password role email sent =>
    rw [step, State.createWithLink]
    split
    · exact Keeps.refl s
    · have hcreated := ((Keeps.createUser (h := h) (s := s) username password role email false
        false).trans (Keeps.update username (fun a => { a with awaitingPassword := true })
          fun _ => rfl)).trans (Keeps.issueReset username 86400)
      cases sent with
      | true => exact hcreated
      | false => exact hcreated.trans (Keeps.deleteUser username)
  | deleteUser username => exact Keeps.deleteUser username
  | setDisabled username disabled => exact Keeps.update username _ fun _ => rfl
  | approve username => exact Keeps.update username _ fun _ => rfl
  | request t => exact Keeps.refl s
  | logoutAll t =>
    rw [step, State.logoutAll]
    split
    · exact Keeps.refl s
    · exact Keeps.bumpSessionEpoch _
  | mailResetLink username =>
    rw [step, State.mailResetLink]
    split
    · exact Keeps.refl s
    · split
      · exact Keeps.issueReset username 900
      · exact Keeps.refl s
  | resetPassword token newPassword =>
    rw [step, State.resetPassword]
    split
    · exact Keeps.refl s
    · have hpopped := Keeps.links s (erase (live s.now s.resets) token) s.verifications
      split
      · exact hpopped
      · exact hpopped.trans (Keeps.update _ _ fun _ => rfl)
  | changeEmail t password email =>
    rw [step, State.changeOwnEmail]
    split
    · exact Keeps.refl s
    · split
      · exact Keeps.refl s
      · split
        · exact Keeps.refl s
        · split
          · exact Keeps.update _ _ fun _ => rfl
          · split
            · exact Keeps.refl s
            · exact Keeps.issueVerification _ email
  | verifyEmail token =>
    have hpopped := Keeps.links s s.resets (erase (live s.now s.verifications) token)
    rw [step, State.verifyEmail]
    split
    · exact hpopped
    · exact hpopped.trans (Keeps.update _ _ fun _ => rfl)
  | wait _ => exact hact.elim
  | configure _ => exact hact.elim
  | login _ _ => exact hact.elim
  | renew _ _ => exact hact.elim
  | logout _ => exact hact.elim
  | authorize _ _ _ => exact hact.elim
  | redeem _ _ => exact hact.elim
  | openSession _ => exact hact.elim

end SentinelNet.Sessions
