import SentinelNet.Sessions.Lifetimes

/-!
# Clients that may only read

A client can be approved for reading only, and then every session that it opens is the session of
a viewer, whatever the role of its user.  The mark goes from the approval to the code, from the code
to the grant and from the grant to the sessions; a second mark, for drafts of a blueprint, goes the
same way, and `open_mcp_session` asks for the role of the user once more.

* `step`: a request.
* `readOnly_stays`: this is so in every run.
-/

namespace SentinelNet.Sessions

open Assoc

/-! ## Requests -/

def isAdmin (role : Role) : Bool := role = .admin ∨ role = .superAdmin

/-- An approval: the role of the account that gave it, and the flag `bp_draft` of the request. -/
structure Approval where
  role : Role
  bpDraft : Bool

/-- Where a credential comes from. -/
structure Origin where
  /-- It was obtained through a session that a grant for reading only opened. -/
  readOnly : Bool
  approval : Option Approval
  /-- The role of its user when the session was opened. -/
  opened : Option Role

/-- The stores, the mark `bp_draft` of the codes and the grants with the mark `bpd` of the tokens,
and the origins.  No operation reads the origins. -/
structure Marked where
  base : State
  drafts : ℕ → Bool
  origins : ℕ → Origin

/-- No credential was issued yet. -/
def Marked.start (now : ℚ) (settings : Settings) : Marked :=
  ⟨State.start now settings, fun _ => false, fun _ => ⟨false, none, none⟩⟩

def State.changePassword (h : Hashing) (s : State) (t : Token) (old new : String) : State :=
  if new.length < 8 then s
  else
    match getCurrentUser s t with
    | .error _ => s
    | .ok payload =>
      match find s.users payload.sub with
      | none => s
      | some a =>
        if h.checkpw old a.hashedPassword then
          s.update payload.sub fun a =>
            { a with hashedPassword := h.hashpw new, mustChangePassword := false }
        else s

inductive Request where
  /-- An action of the sessions; an approval without the flag `bp_draft` among them. -/
  | act (a : Action)
  | authorize (t : Token) (challenge : String) (readOnly bpDraft : Bool)
  | setRole (username : String) (role : Role)
  | changePassword (t : Token) (old new : String)
  | revoke (grant : ℕ)

/-- The number of the credential that a request is made with. -/
def shown : Request → Option ℕ
  | .act a => (presented a).map Credential.number
  | .authorize t _ _ _ => some t.jti
  | .changePassword t _ _ => some t.jti
  | .setRole _ _ => none
  | .revoke _ => none

namespace Marked

variable (m : Marked)

def mark : Request → Bool
  | .authorize t _ readOnly bpDraft =>
    match getCurrentUser m.base t with
    | .error _ => false
    | .ok payload => bpDraft && (readOnly || payload.role = .viewer) && isAdmin payload.role
  | .act (.redeem code _) => m.drafts code
  | .act (.openSession grant) =>
    match userForGrant m.base grant with
    | none => false
    | some (g, a) => g.readOnly && (m.drafts grant && isAdmin a.role)
  | _ => false

def approval : Request → Option Approval
  | .authorize t _ _ bpDraft => (find m.base.users t.sub).map fun a => ⟨a.role, bpDraft⟩
  | .act (.authorize t _ _) => (find m.base.users t.sub).map fun a => ⟨a.role, false⟩
  | req => (shown req).bind fun n => (m.origins n).approval

def opening : Request → Option Grant
  | .act (.openSession grant) => find m.base.grants grant
  | _ => none

def origin (req : Request) : Origin where
  readOnly :=
    ((shown req).any fun n => (m.origins n).readOnly) || (m.opening req).any Grant.readOnly
  approval := m.approval req
  opened := (m.opening req).bind fun g => (find m.base.users g.user).map Account.role

def after (req : Request) (s' : State) : Marked where
  base := s'
  drafts := Function.update m.drafts m.base.next (m.mark req)
  origins := Function.update m.origins m.base.next (m.origin req)

end Marked

def serve (h : Hashing) (s : State) : Request → State
  | .act a => Sessions.step h s a
  | .authorize t challenge readOnly _ => s.authorizeMcpClient t challenge readOnly
  | .setRole username role => s.update username fun a => { a with role := role }
  | .changePassword t old new => s.changePassword h t old new
  | .revoke grant => { s with grants := erase s.grants grant }

def Marked.step (h : Hashing) (m : Marked) (req : Request) : Marked :=
  m.after req (serve h m.base req)

/-! ## The marks of a credential -/

/-- The kinds of credentials with marks. -/
inductive Kind where
  | session
  | code
  | grant

/-- There is a credential with a number and a mark. -/
def Holds (s : State) : Kind → ℕ → Bool → Prop
  | .session, n, ro => ∃ t ∈ s.issued, t.jti = n ∧ t.ro = ro
  | .code, n, ro => ∃ e ∈ s.codes, e.1 = n ∧ e.2.readOnly = ro
  | .grant, n, ro => ∃ e ∈ s.grants, e.1 = n ∧ e.2.readOnly = ro

/-- An approval by an administrator, with the flag. -/
def Lent (approval : Option Approval) : Prop :=
  ∃ a, approval = some a ∧ a.bpDraft = true ∧ isAdmin a.role = true

/-- The marks of a credential are those of its origin. -/
structure Justified (origin : Origin) (draft : Bool) (kind : Kind) (ro : Bool) : Prop where
  readOnly : origin.readOnly = true → ro = true
  lent : draft = true → ro = true ∧ Lent origin.approval
  opened : kind = .session → draft = true →
    ∃ role, origin.opened = some role ∧ isAdmin role = true

/-- All credentials have the marks of their origins. -/
structure Carrying (m : Marked) : Prop where
  lt_next : ∀ kind n ro, Holds m.base kind n ro → n < m.base.next
  justified : ∀ kind n ro, Holds m.base kind n ro → Justified (m.origins n) (m.drafts n) kind ro

variable {h : Hashing} {m : Marked} {s s' : State} {req : Request}

theorem not_holds_start (now : ℚ) (settings : Settings) (kind : Kind) (n : ℕ) (ro : Bool) :
    ¬ Holds (State.start now settings) kind n ro := by
  intro hholds
  cases kind with
  | session =>
    obtain ⟨t, ht, -⟩ := hholds
    cases ht
  | code =>
    obtain ⟨e, he, -⟩ := hholds
    cases he
  | grant =>
    obtain ⟨e, he, -⟩ := hholds
    cases he

theorem carrying_start (now : ℚ) (settings : Settings) : Carrying (Marked.start now settings) where
  lt_next kind n ro hholds := absurd hholds (not_holds_start now settings kind n ro)
  justified kind n ro hholds := absurd hholds (not_holds_start now settings kind n ro)

theorem Keeps.holds (hkeeps : Keeps s s') {kind : Kind} {n : ℕ} {ro : Bool}
    (hholds : Holds s' kind n ro) : Holds s kind n ro := by
  cases kind with
  | session =>
    rw [Holds, ← hkeeps.issued]
    exact hholds
  | code =>
    rw [Holds, ← hkeeps.codes]
    exact hholds
  | grant =>
    rw [Holds, ← hkeeps.grants]
    exact hholds

section

variable (hm : Carrying m)

include hm

theorem Carrying.after (hnext : m.base.next ≤ s'.next)
    (hnew : ∀ kind n ro, Holds s' kind n ro → Holds m.base kind n ro ∨ n = m.base.next ∧ m.base.next < s'.next ∧ Justified (m.origin req) (m.mark req) kind ro) :
    Carrying (m.after req s') where
  lt_next kind n ro hholds := by
    rcases hnew kind n ro hholds with hold | ⟨rfl, hlt, -⟩
    · exact (hm.lt_next kind n ro hold).trans_le hnext
    · exact hlt
  justified kind n ro hholds := by
    change Justified (Function.update m.origins m.base.next (m.origin req) n)
      (Function.update m.drafts m.base.next (m.mark req) n) kind ro
    rcases hnew kind n ro hholds with hold | ⟨rfl, -, hjustified⟩
    · have hne : n ≠ m.base.next := (hm.lt_next kind n ro hold).ne
      rw [Function.update_of_ne hne, Function.update_of_ne hne]
      exact hm.justified kind n ro hold
    · rw [Function.update_self, Function.update_self]
      exact hjustified

theorem Carrying.same (hnext : m.base.next ≤ s'.next)
    (hold : ∀ kind n ro, Holds s' kind n ro → Holds m.base kind n ro) : Carrying (m.after req s') :=
  hm.after hnext fun kind n ro hholds => Or.inl (hold kind n ro hholds)

theorem Carrying.keeps (hkeeps : Keeps m.base s') : Carrying (m.after req s') :=
  hm.same hkeeps.next fun _ _ _ hholds => hkeeps.holds hholds

/-! ## What is issued -/

theorem Carrying.mint {t : Token} {signIn : ℕ} (now : ℚ) (hjti : t.jti = m.base.next)
    (ht : Justified (m.origin req) (m.mark req) .session t.ro) :
    Carrying (m.after req { m.base.mint t signIn with now := now }) := by
  refine hm.after (Nat.le_succ _) fun kind n ro hholds => ?_
  cases kind with
  | session =>
    obtain ⟨t', ht', rfl, rfl⟩ := hholds
    rcases List.mem_cons.mp ht' with rfl | ht'
    · exact Or.inr ⟨hjti, Nat.lt_succ_self _, ht⟩
    · exact Or.inl ⟨t', ht', rfl, rfl⟩
  | code => exact Or.inl hholds
  | grant => exact Or.inl hholds

theorem Carrying.code {t : Token} {challenge : String} {readOnly : Bool}
    (ht : ∀ payload, getCurrentUser m.base t = .ok payload → Justified (m.origin req) (m.mark req) .code (readOnly || payload.role = .viewer)) :
    Carrying (m.after req (m.base.authorizeMcpClient t challenge readOnly)) := by
  rw [State.authorizeMcpClient]
  split
  · exact hm.keeps (Keeps.refl m.base)
  · next payload hpayload =>
    refine hm.after (Nat.le_succ _) fun kind n ro hholds => ?_
    cases kind with
    | session => exact Or.inl hholds
    | code =>
      obtain ⟨e, he, rfl, rfl⟩ := hholds
      rcases mem_put he with rfl | he
      · exact Or.inr ⟨rfl, Nat.lt_succ_self _, ht payload hpayload⟩
      · exact Or.inl ⟨e, List.mem_of_mem_filter he, rfl, rfl⟩
    | grant => exact Or.inl hholds

theorem Carrying.viewer {t payload : Token} (hpayload : getCurrentUser m.base t = .ok payload)
    (hro : (m.origins t.jti).readOnly) :
    t.ro = true ∧ payload.ro = true ∧ payload.role = .viewer := by
  obtain ⟨a, ha, rfl⟩ := getCurrentUser_eq_ok.mp hpayload
  have ht : t.ro = true :=
    (hm.justified .session t.jti t.ro ⟨t, ha.issued, rfl, rfl⟩).readOnly hro
  exact ⟨ht, ht, if_pos ht⟩

theorem Carrying.authorize (t : Token) (challenge : String) (readOnly bpDraft : Bool) :
    Carrying (m.after (.authorize t challenge readOnly bpDraft)
      (m.base.authorizeMcpClient t challenge readOnly)) := by
  refine hm.code fun payload hpayload => ⟨fun hro => ?_, fun hmark => ?_, fun hkind => ?_⟩
  · have hro : (m.origins t.jti).readOnly = true := by
      simpa [Marked.origin, Marked.opening, shown] using hro
    simp [(hm.viewer hpayload hro).2.2]
  · simp only [Marked.mark, hpayload, Bool.and_eq_true] at hmark
    obtain ⟨⟨hflag, hreadOnly⟩, hadmin⟩ := hmark
    refine ⟨hreadOnly, ?_⟩
    obtain ⟨a, ha, rfl⟩ := getCurrentUser_eq_ok.mp hpayload
    -- A session for reading only has the role of a viewer, who is no administrator.
    have hro : t.ro = false := by
      rw [← Bool.not_eq_true]
      intro hro
      simp [isAdmin, hro] at hadmin
    rw [hro] at hadmin
    exact ⟨⟨a.role, bpDraft⟩, by simp [Marked.origin, Marked.approval, ha.account], hflag, hadmin⟩
  · cases hkind

theorem Carrying.redeem (code : ℕ) (verifier : String) :
    Carrying (m.after (.act (.redeem code verifier)) (m.base.redeemCode h code verifier)) := by
  rw [State.redeemCode]
  split
  · refine hm.same le_rfl fun kind n ro hholds => ?_
    cases kind with
    | session => exact hholds
    | code =>
      obtain ⟨e, he, hrest⟩ := hholds
      exact ⟨e, List.mem_of_mem_filter he, hrest⟩
    | grant => exact hholds
  · next c hc =>
    have hcode := hm.justified .code code c.readOnly
      ⟨(code, c), mem_of_find (redeemable_eq_some.mp hc).1, rfl, rfl⟩
    refine hm.after (Nat.le_succ _) fun kind n ro hholds => ?_
    cases kind with
    | session => exact Or.inl hholds
    | code =>
      obtain ⟨e, he, hrest⟩ := hholds
      exact Or.inl ⟨e, List.mem_of_mem_filter he, hrest⟩
    | grant =>
      obtain ⟨e, he, rfl, rfl⟩ := hholds
      rcases mem_put he with rfl | he
      · refine Or.inr ⟨rfl, Nat.lt_succ_self _, fun hro => hcode.readOnly ?_, hcode.lent,
          fun hkind => by cases hkind⟩
        simpa [Marked.origin, Marked.opening, shown, presented, Credential.number] using hro
      · exact Or.inl ⟨e, he, rfl, rfl⟩

theorem Carrying.openSession (grant : ℕ) :
    Carrying (m.after (.act (.openSession grant)) (m.base.openMcpSession grant)) := by
  rw [State.openMcpSession]
  split
  · exact hm.keeps (Keeps.refl m.base)
  · next g a hg =>
    obtain ⟨hgrant, ha, -⟩ := userForGrant_eq_some.mp hg
    have hjustified := hm.justified .grant grant g.readOnly
      ⟨(grant, g), mem_of_find hgrant, rfl, rfl⟩
    have hopened : (m.origin (.act (.openSession grant))).opened = some a.role := by
      simp [Marked.origin, Marked.opening, hgrant, ha]
    refine hm.mint m.base.now rfl ⟨fun hro => ?_, fun hmark => ?_, fun _ hmark => ?_⟩
    · have hro : (m.origins grant).readOnly = true ∨ g.readOnly = true := by
        simpa [Marked.origin, Marked.opening, shown, presented, Credential.number, hgrant] using hro
      exact hro.elim hjustified.readOnly id
    · simp only [Marked.mark, hg, Bool.and_eq_true] at hmark
      exact ⟨hmark.1, (hjustified.lent hmark.2.1).2⟩
    · simp only [Marked.mark, hg, Bool.and_eq_true] at hmark
      exact ⟨a.role, hopened, hmark.2.2⟩

theorem Carrying.renew (t : Token) (delay : ℚ≥0) :
    Carrying (m.after (.act (.renew t delay)) (m.base.renewSessionCookie t delay)) := by
  rw [State.renewSessionCookie]
  split
  · exact hm.keeps (Keeps.refl m.base)
  · next token htoken =>
    obtain ⟨a, ha, hro, -, -, rfl⟩ := renewed_eq_some htoken
    refine hm.mint _ rfl
      ⟨fun horigin => ?_, fun hmark => (by cases hmark), fun _ hmark => by cases hmark⟩
    have horigin : (m.origins t.jti).readOnly = true := by
      simpa [Marked.origin, Marked.opening, shown, presented, Credential.number] using horigin
    -- A session for reading only is never renewed.
    have ht := (hm.justified .session t.jti t.ro ⟨t, ha.issued, rfl, rfl⟩).readOnly horigin
    exact absurd (hro.symm.trans ht) Bool.false_ne_true

theorem Carrying.login (username password : String) :
    Carrying (m.after (.act (.login username password)) (m.base.login h username password)) := by
  rw [State.login]
  split
  · exact hm.keeps (Keeps.refl m.base)
  · split
    · exact hm.mint m.base.now rfl
        ⟨fun horigin => (by cases horigin), fun hmark => (by cases hmark),
          fun _ hmark => by cases hmark⟩
    · exact hm.keeps (Keeps.refl m.base)

end

theorem Keeps.changePassword (s : State) (t : Token) (old new : String) :
    Keeps s (s.changePassword h t old new) := by
  rw [State.changePassword]
  split
  · exact Keeps.refl s
  · split
    · exact Keeps.refl s
    · split
      · exact Keeps.refl s
      · split
        · exact Keeps.update _ _ fun _ => rfl
        · exact Keeps.refl s

/-! ## Runs -/

/-- Every request keeps the marks. -/
theorem Carrying.step (hm : Carrying m) (req : Request) : Carrying (m.step h req) := by
  rw [Marked.step]
  cases req with
  | authorize t challenge readOnly bpDraft => exact hm.authorize t challenge readOnly bpDraft
  | setRole username role => exact hm.keeps (Keeps.update username _ fun _ => rfl)
  | changePassword t old new => exact hm.keeps (Keeps.changePassword m.base t old new)
  | revoke grant =>
    refine hm.same le_rfl fun kind n ro hholds => ?_
    cases kind with
    | session => exact hholds
    | code => exact hholds
    | grant =>
      obtain ⟨e, he, hrest⟩ := hholds
      exact ⟨e, List.mem_of_mem_filter he, hrest⟩
  | act a =>
    by_cases ha : Keeping a
    · exact hm.keeps (keeps_step ha)
    · cases a with
      | wait time => exact hm.same le_rfl fun kind _ _ hholds => by cases kind <;> exact hholds
      | configure settings =>
        exact hm.same le_rfl fun kind _ _ hholds => by cases kind <;> exact hholds
      | login username password => exact hm.login username password
      | renew t delay => exact hm.renew t delay
      | logout t =>
        rw [serve, Sessions.step, State.logout]
        split
        · exact hm.keeps (Keeps.refl m.base)
        · exact hm.same le_rfl fun kind _ _ hholds => by cases kind <;> exact hholds
      | authorize t challenge readOnly =>
        refine hm.code fun payload hpayload =>
          ⟨fun hro => ?_, fun hmark => (by cases hmark), fun hkind => by cases hkind⟩
        have hro : (m.origins t.jti).readOnly = true := by
          simpa [Marked.origin, Marked.opening, shown, presented, Credential.number] using hro
        simp [(hm.viewer hpayload hro).2.2]
      | redeem code verifier => exact hm.redeem code verifier
      | openSession grant => exact hm.openSession grant
      | _ => exact absurd trivial ha

theorem carrying_run (h : Hashing) (now : ℚ) (settings : Settings) (reqs : List Request) :
    Carrying (reqs.foldl (Marked.step h) (Marked.start now settings)) :=
  List.foldlRecOn reqs (Marked.step h) (carrying_start now settings) fun _ hm req _ => hm.step req

/-- Reading only stays reading only: what was obtained through a session for reading only has the
mark, and speaks for a viewer; the mark for drafts is on sessions for reading only, whose client was
approved with it by an administrator, and whose user was an administrator when they were opened. -/
structure StaysReadOnly (m : Marked) : Prop where
  obtained : ∀ kind n ro, Holds m.base kind n ro → (m.origins n).readOnly = true → ro = true
  viewer : ∀ t payload, (m.origins t.jti).readOnly = true →
    getCurrentUser m.base t = .ok payload → payload.ro = true ∧ payload.role = .viewer
  drafts : ∀ t ∈ m.base.issued, m.drafts t.jti = true →
    t.ro = true ∧ Lent (m.origins t.jti).approval ∧
      ∃ role, (m.origins t.jti).opened = some role ∧ isAdmin role = true

/-- **Access for reading only stays so**, in every run. -/
theorem readOnly_stays (h : Hashing) (now : ℚ) (settings : Settings) (reqs : List Request) :
    StaysReadOnly (reqs.foldl (Marked.step h) (Marked.start now settings)) where
  obtained kind n ro hholds :=
    ((carrying_run h now settings reqs).justified kind n ro hholds).readOnly
  viewer _ _ hro hpayload := ((carrying_run h now settings reqs).viewer hpayload hro).2
  drafts t ht hmark := by
    have hjustified :=
      (carrying_run h now settings reqs).justified .session t.jti t.ro ⟨t, ht, rfl, rfl⟩
    exact ⟨(hjustified.lent hmark).1, (hjustified.lent hmark).2, hjustified.opened rfl hmark⟩

end SentinelNet.Sessions
