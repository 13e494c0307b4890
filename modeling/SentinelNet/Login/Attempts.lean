import SentinelNet.Lib.Runs
import SentinelNet.Login.Lockout

/-!
# Requests to log in

A request reads the lockout, verifies the password, which is slow, and then records the failure or
resets the store.  Requests run side by side, so that between these steps others come, and a process
that is restarted forgets the requests that it had.

* `step`: one step of one request, some time that passes, or a restart.
* `Bounded.step`: such a step keeps it.
* `bounded_of_guarded`: in a run of such steps no window has too many attempts.
* `crowd_and_neighbour`: requests that come at the same time, and two logins with one key.
-/

namespace SentinelNet.Login

open StepRuns

/-! ## The machine -/

/-- `limit_key`, of the address and the account. -/
def limitKey (login : String × String) : String := "login:" ++ login.1 ++ ":" ++ login.2

/-- A request that passed the lockout, and what `verify_user` said. -/
structure Request where
  login : String × String
  verified : Option Bool

/-- The process; `tries` has the times of the verifications since the last success, `failures` those
of the failures that were recorded. -/
structure Server where
  now : ℚ
  store : Store
  requests : List Request
  tries : String × String → List ℚ
  failures : String × String → List ℚ

/-- Nothing has happened. -/
def Server.start (now : ℚ) : Server :=
  ⟨now, ⟨fun _ => [], fun _ => [], false⟩, [], fun _ => [], fun _ => []⟩

/-- What happens: a request comes, its password is verified, for an account that is active or not,
and it is brought to its end, where the file may not be written. -/
inductive Act where
  | wait (d : ℚ≥0)
  | check (login : String × String)
  | verify (i : ℕ) (right active : Bool)
  | finish (i : ℕ) (saved : Bool)
  | restart

/-- `is_locked_out`, which lets a request through or not. -/
def Server.check (s : Server) (login : String × String) : Server :=
  let answer := s.store.isLockedOut s.now (limitKey login)
  { s with
    store := answer.2
    requests := if answer.1 = true then s.requests else s.requests ++ [⟨login, none⟩] }

/-- `verify_user`; a request for an account that is disabled or pending ends here. -/
def Server.verify (s : Server) (i : ℕ) (right active : Bool) : Server :=
  match s.requests[i]? with
  | some ⟨login, none⟩ =>
    { s with
      requests := if right = true ∧ active = false then s.requests.eraseIdx i
        else s.requests.set i ⟨login, some right⟩
      tries := Function.update s.tries login (s.tries login ++ [s.now]) }
  | _ => s

/-- `reset_failed_attempts` or `record_failed_attempt`. -/
def Server.finish (s : Server) (i : ℕ) (saved : Bool) : Server :=
  match s.requests[i]? with
  | some ⟨login, some true⟩ =>
    { s with
      store := s.store.resetFailedAttempts s.now (limitKey login) saved
      requests := s.requests.eraseIdx i
      tries := Function.update s.tries login [] }
  | some ⟨login, some false⟩ =>
    { s with
      store := s.store.recordFailedAttempt s.now (limitKey login) saved
      requests := s.requests.eraseIdx i
      failures := Function.update s.failures login (s.failures login ++ [s.now]) }
  | _ => s

def step (s : Server) : Act → Server
  | .wait d => { s with now := s.now + d }
  | .check login => s.check login
  | .verify i right active => s.verify i right active
  | .finish i saved => s.finish i saved
  | .restart => { s with store := s.store.restart, requests := [] }

/-! ## Steps that are guarded -/

/-- How many requests of a login are on their way. -/
def inFlight (login : String × String) (requests : List Request) : ℕ :=
  requests.countP fun r => r.login = login

/-- How many of them have been verified. -/
def unrecorded (login : String × String) (requests : List Request) : ℕ :=
  requests.countP fun r => r.login = login ∧ r.verified ≠ none

/-- A request passes the lockout only if it also did if those of its key on their way had failed, a
right password is that of an active account, and a restart loses neither a verification nor a
failure that counts. -/
def Guarded (logins : Set (String × String)) (s : Server) : Act → Prop
  | .wait _ => True
  | .check login => login ∈ logins ∧ ((s.store.isLockedOut s.now (limitKey login)).1 = false →
      later (s.now - lockoutSeconds) (s.store.times (limitKey login)) +
        s.requests.countP (fun r => limitKey r.login = limitKey login) < maxAttempts)
  | .verify _ right active => right = true → active = true
  | .finish _ _ => True
  | .restart => (∀ r ∈ s.requests, r.verified = none) ∧ s.store.Saved s.now

/-- What holds of the counts. -/
structure Bounded (logins : Set (String × String)) (s : Server) : Prop where
  known : ∀ r ∈ s.requests, r.login ∈ logins
  past : ∀ login, ∀ t ∈ s.tries login, t ≤ s.now
  /-- A verification that counts is in the store or is not recorded yet. -/
  counted : ∀ login ∈ logins, ∀ x, s.now - lockoutSeconds ≤ x → later x (s.tries login) ≤
    later x (s.store.times (limitKey login)) + unrecorded login s.requests
  /-- A request that is to be verified was let through for good reason. -/
  room : ∀ r ∈ s.requests, r.verified = none →
    later (s.now - lockoutSeconds) (s.store.times (limitKey r.login)) +
      inFlight r.login s.requests ≤ maxAttempts
  windows : ∀ login x, ((s.tries login).countP fun t => x ≤ t ∧ t < x + lockoutSeconds) ≤
    maxAttempts
  own : ∀ login ∈ logins, ∀ x, s.now - lockoutSeconds ≤ x →
    later x (s.store.times (limitKey login)) ≤ later x (s.failures login)
  file : ∀ login ∈ logins, ∀ x, s.now - lockoutSeconds ≤ x →
    later x (s.store.disk (limitKey login)) ≤ later x (s.failures login)

variable {logins : Set (String × String)} {s s' : Server}

/-! ## Counting requests -/

theorem exists_split {requests : List Request} {i : ℕ} {r : Request}
    (h : requests[i]? = some r) : ∃ before after, requests = before ++ r :: after ∧
      requests.eraseIdx i = before ++ after ∧
      ∀ r', requests.set i r' = before ++ r' :: after := by
  obtain ⟨hi, hr⟩ := List.getElem?_eq_some_iff.mp h
  refine ⟨requests.take i, requests.drop (i + 1), ?_, List.eraseIdx_eq_take_drop_succ requests i,
    fun r' => ?_⟩
  · rw [← hr, List.getElem_cons_drop, List.take_append_drop]
  · rw [List.set_eq_take_append_cons_drop, if_pos hi]

variable {before after : List Request}

theorem mem_of_mem_others {r r' : Request} (h : r' ∈ before ++ after) : r' ∈ before ++ r :: after :=
  (List.Sublist.append_left (List.sublist_cons_self _ _) before).subset h

theorem inFlight_split (login : String × String) (before after : List Request) (r : Request) :
    inFlight login (before ++ r :: after) =
      inFlight login (before ++ after) + if r.login = login then 1 else 0 := by
  simp only [inFlight, List.countP_append, List.countP_cons, decide_eq_true_eq]
  omega

theorem unrecorded_split (login : String × String) (before after : List Request) (r : Request) :
    unrecorded login (before ++ r :: after) = unrecorded login (before ++ after) +
      if r.login = login ∧ r.verified ≠ none then 1 else 0 := by
  simp only [unrecorded, List.countP_append, List.countP_cons, decide_eq_true_eq]
  omega

theorem unrecorded_lt {requests : List Request} {r : Request} (hr : r ∈ requests)
    (hnone : r.verified = none) : unrecorded r.login requests < inFlight r.login requests := by
  obtain ⟨before, after, rfl⟩ := List.append_of_mem hr
  rw [inFlight_split, unrecorded_split, if_pos rfl, if_neg fun h => h.2 hnone]
  have hle : unrecorded r.login (before ++ after) ≤ inFlight r.login (before ++ after) :=
    List.countP_mono_left fun u _ hu => by
      rw [decide_eq_true_eq] at hu ⊢
      exact hu.1
  omega

/-! ## What the steps keep -/

theorem bounded_start (now : ℚ) : Bounded logins (.start now) where
  known _ hr := nomatch hr
  past _ _ ht := nomatch ht
  counted _ _ _ _ := Nat.zero_le _
  room _ hr := nomatch hr
  windows _ _ := Nat.zero_le _
  own _ _ _ _ := le_refl _
  file _ _ _ _ := le_refl _

theorem Bounded.wait (h : Bounded logins s) (d : ℚ≥0) :
    Bounded logins { s with now := s.now + d } := by
  have hd : s.now ≤ s.now + d := le_add_of_nonneg_right d.2
  have hback : ∀ x, s.now + d - lockoutSeconds ≤ x → s.now - lockoutSeconds ≤ x :=
    fun x hx => by linarith
  refine ⟨h.known, fun login t ht => (h.past login t ht).trans hd,
    fun login hl x hx => h.counted login hl x (hback x hx), fun r hr hnone => ?_, h.windows,
    fun login hl x hx => h.own login hl x (hback x hx),
    fun login hl x hx => h.file login hl x (hback x hx)⟩
  have hless := later_anti (hback _ (le_refl _)) (s.store.times (limitKey r.login))
  have hroom := h.room r hr hnone
  dsimp only
  omega

variable {login : String × String}

section

variable (h : Bounded logins s)

include h

theorem Bounded.check (hl : login ∈ logins)
    (hguard : (s.store.isLockedOut s.now (limitKey login)).1 = false → later (s.now - lockoutSeconds) (s.store.times (limitKey login)) + s.requests.countP (fun r => limitKey r.login = limitKey login) < maxAttempts) :
    Bounded logins (s.check login) := by
  have hlater : ∀ k x, s.now - lockoutSeconds ≤ x →
      later x ((s.store.isLockedOut s.now (limitKey login)).2.times k) =
        later x (s.store.times k) := fun k x hx => later_isLockedOut s.store (limitKey login) k hx
  have hmem : ∀ r ∈ (s.check login).requests, r ∈ s.requests ∨
      ((s.store.isLockedOut s.now (limitKey login)).1 = false ∧ r = ⟨login, none⟩) := by
    intro r hr
    rw [Server.check] at hr
    dsimp only at hr
    split at hr
    · exact Or.inl hr
    · next hlocked =>
      rcases List.mem_append.mp hr with hr | hr
      · exact Or.inl hr
      · exact Or.inr ⟨by simpa using hlocked, List.mem_singleton.mp hr⟩
  have hunrecorded : ∀ l, unrecorded l (s.check login).requests = unrecorded l s.requests := by
    intro l
    rw [Server.check]
    dsimp only
    split
    · rfl
    · simp [unrecorded, List.countP_append]
  have hinFlight : ∀ l, inFlight l (s.check login).requests ≤ inFlight l s.requests +
      if (s.store.isLockedOut s.now (limitKey login)).1 = false ∧ l = login then 1 else 0 := by
    intro l
    rw [Server.check]
    dsimp only
    split
    · exact Nat.le_add_right _ _
    · next hlocked =>
      have hopen : (s.store.isLockedOut s.now (limitKey login)).1 = false := by simpa using hlocked
      rw [inFlight_split, List.append_nil]
      simp only [hopen, true_and, eq_comm, le_refl]
  refine ⟨fun r hr => ?_, h.past, fun l hm x hx => ?_, fun r hr hnone => ?_, h.windows,
    fun l hm x hx => ?_, fun l hm x hx => ?_⟩
  · rcases hmem r hr with hr | ⟨-, rfl⟩
    · exact h.known r hr
    · exact hl
  · rw [hunrecorded]
    exact (h.counted l hm x hx).trans_eq (congrArg (· + _) (hlater _ x hx).symm)
  · have hstore : later (s.now - lockoutSeconds) ((s.check login).store.times (limitKey r.login)) =
        later (s.now - lockoutSeconds) (s.store.times (limitKey r.login)) :=
      hlater _ _ (le_refl _)
    change later (s.now - lockoutSeconds) _ + _ ≤ _
    rw [hstore]
    have hcount := hinFlight r.login
    by_cases hnew : (s.store.isLockedOut s.now (limitKey login)).1 = false ∧ r.login = login
    · have hkeys : inFlight login s.requests ≤
          s.requests.countP fun r => limitKey r.login = limitKey login :=
        List.countP_mono_left fun u _ hu => by
          rw [decide_eq_true_eq] at hu ⊢
          rw [hu]
      have hbudget := hguard hnew.1
      rw [if_pos hnew, hnew.2] at hcount
      rw [hnew.2]
      omega
    · rw [if_neg hnew] at hcount
      rcases hmem r hr with hr | ⟨hopen, rfl⟩
      · have hroom := h.room r hr hnone
        omega
      · exact absurd ⟨hopen, rfl⟩ hnew
  · exact (hlater _ x hx).trans_le (h.own l hm x hx)
  · change later x ((s.store.isLockedOut s.now (limitKey login)).2.disk (limitKey l)) ≤ _
    rw [disk_isLockedOut]
    exact h.file l hm x hx

theorem Bounded.verify (i : ℕ) {right active : Bool} (hguard : right = true → active = true) :
    Bounded logins (s.verify i right active) := by
  rw [Server.verify]
  split
  · next login hi =>
    obtain ⟨before, after, hrequests, -, hset⟩ := exists_split hi
    have hactive : ¬ (right = true ∧ active = false) := fun hand => by
      rw [hguard hand.1] at hand
      exact Bool.noConfusion hand.2
    rw [if_neg hactive, hset]
    have hmem : (⟨login, none⟩ : Request) ∈ s.requests := by
      rw [hrequests]
      exact List.mem_append_right _ List.mem_cons_self
    have hl : login ∈ logins := h.known _ hmem
    have hroom := h.room _ hmem rfl
    have hcases : ∀ r ∈ before ++ ⟨login, some right⟩ :: after,
        r ∈ s.requests ∨ r = ⟨login, some right⟩ := by
      intro r hr
      rw [hrequests]
      rcases List.mem_append.mp hr with hr | hr
      · exact Or.inl (List.mem_append_left _ hr)
      · rcases List.mem_cons.mp hr with rfl | hr
        · exact Or.inr rfl
        · exact Or.inl (List.mem_append_right _ (List.mem_cons_of_mem _ hr))
    have hinFlight : ∀ l, inFlight l (before ++ ⟨login, some right⟩ :: after) =
        inFlight l s.requests := by
      intro l
      rw [hrequests, inFlight_split, inFlight_split]
    have hunrecorded : ∀ l, unrecorded l (before ++ ⟨login, some right⟩ :: after) =
        unrecorded l s.requests + if l = login then 1 else 0 := by
      intro l
      rw [hrequests, unrecorded_split, unrecorded_split]
      simp [eq_comm]
    refine ⟨fun r hr => ?_, fun l t ht => ?_, fun l hm x hx => ?_, fun r hr hnone => ?_,
      fun l x => ?_, h.own, h.file⟩
    · rcases hcases r hr with hr | rfl
      · exact h.known r hr
      · exact hl
    · dsimp only at ht
      rw [Function.update_apply] at ht
      split at ht
      · next heq =>
        rcases List.mem_append.mp ht with ht | ht
        · exact h.past login t ht
        · rw [List.mem_singleton.mp ht]
      · exact h.past l t ht
    · have hcounted := h.counted l hm x hx
      dsimp only
      rw [hunrecorded, Function.update_apply]
      by_cases heq : l = login
      · rw [if_pos heq, if_pos heq, later_concat, ← heq]
        have hone : (if x < s.now then 1 else 0) ≤ 1 := by split <;> omega
        omega
      · rw [if_neg heq, if_neg heq]
        exact hcounted
    · have hold : r ∈ s.requests := by
        rcases hcases r hr with hr | rfl
        · exact hr
        · cases hnone
      dsimp only
      rw [hinFlight]
      exact h.room r hold hnone
    · dsimp only
      rw [Function.update_apply]
      by_cases heq : l = login
      · rw [if_pos heq, List.countP_append, List.countP_singleton]
        by_cases hin : x ≤ s.now ∧ s.now < x + lockoutSeconds
        · -- The window ends now, so that what it has counts.
          have hwindow : ((s.tries login).countP fun t => x ≤ t ∧ t < x + lockoutSeconds) ≤
              later (s.now - lockoutSeconds) (s.tries login) :=
            List.countP_mono_left fun t _ ht => by
              rw [decide_eq_true_eq] at ht ⊢
              linarith [ht.1, hin.2]
          have hcounted := h.counted login hl _ (le_refl _)
          have hfewer := unrecorded_lt hmem rfl
          rw [if_pos (by simpa using hin)]
          dsimp only at hroom hfewer
          omega
        · rw [if_neg (by simpa using hin)]
          exact h.windows login x
      · rw [if_neg heq]
        exact h.windows l x
  · exact h

theorem Bounded.record (hinj : Set.InjOn limitKey logins)
    (hrequests : s.requests = before ++ ⟨login, some false⟩ :: after) (saved : Bool) :
    Bounded logins { s with
      store := s.store.recordFailedAttempt s.now (limitKey login) saved
      requests := before ++ after
      failures := Function.update s.failures login (s.failures login ++ [s.now]) } := by
  have hold : ∀ r ∈ before ++ after, r ∈ s.requests := fun r hr =>
    hrequests ▸ mem_of_mem_others hr
  have hl : login ∈ logins := h.known ⟨login, some false⟩
    (hrequests ▸ List.mem_append_right _ List.mem_cons_self)
  have hkey : ∀ l ∈ logins, limitKey l = limitKey login ↔ l = login := fun l hm =>
    ⟨fun heq => hinj hm hl heq, congrArg limitKey⟩
  have hinFlight : ∀ l, inFlight l s.requests =
      inFlight l (before ++ after) + if login = l then 1 else 0 := by
    intro l
    rw [hrequests, inFlight_split]
  have hunrecorded : ∀ l, unrecorded l s.requests =
      unrecorded l (before ++ after) + if login = l then 1 else 0 := by
    intro l
    rw [hrequests, unrecorded_split]
    simp
  have htimes : ∀ l ∈ logins, ∀ x, s.now - lockoutSeconds ≤ x →
      later x ((s.store.recordFailedAttempt s.now (limitKey login) saved).times (limitKey l)) =
        later x (s.store.times (limitKey l)) + if l = login ∧ x < s.now then 1 else 0 := by
    intro l hm x hx
    rw [later_recordFailedAttempt _ _ _ _ hx]
    simp only [hkey l hm]
  have hfailures : ∀ l x, later x (Function.update s.failures login
      (s.failures login ++ [s.now]) l) =
        later x (s.failures l) + if l = login ∧ x < s.now then 1 else 0 := by
    intro l x
    rw [Function.update_apply]
    by_cases heq : l = login
    · rw [if_pos heq, later_concat, heq]
      simp
    · rw [if_neg heq, if_neg fun hand => heq hand.1, Nat.add_zero]
  have hown : ∀ l ∈ logins, ∀ x, s.now - lockoutSeconds ≤ x →
      later x ((s.store.recordFailedAttempt s.now (limitKey login) saved).times (limitKey l)) ≤
        later x (Function.update s.failures login (s.failures login ++ [s.now]) l) := by
    intro l hm x hx
    rw [htimes l hm x hx, hfailures]
    exact Nat.add_le_add_right (h.own l hm x hx) _
  refine ⟨fun r hr => h.known r (hold r hr), h.past, fun l hm x hx => ?_, fun r hr hnone => ?_,
    h.windows, hown, fun l hm x hx => ?_⟩
  · have hcounted := h.counted l hm x hx
    dsimp only
    rw [htimes l hm x hx]
    rw [hunrecorded] at hcounted
    by_cases heq : login = l
    · by_cases hlt : x < s.now
      · rw [if_pos heq] at hcounted
        rw [if_pos ⟨heq.symm, hlt⟩]
        omega
      · rw [later_eq_zero fun t ht => (h.past l t ht).trans (not_lt.mp hlt)]
        exact Nat.zero_le _
    · rw [if_neg heq] at hcounted
      omega
  · have hroom := h.room r (hold r hr) hnone
    dsimp only
    rw [htimes _ (h.known r (hold r hr)) _ (le_refl _)]
    rw [hinFlight] at hroom
    by_cases heq : login = r.login
    · rw [if_pos heq] at hroom
      have hone : (if r.login = login ∧ s.now - lockoutSeconds < s.now then 1 else 0) ≤ 1 := by
        split <;> omega
      omega
    · rw [if_neg fun hand => heq hand.1.symm]
      omega
  · refine later_disk_recordFailedAttempt _ _ _ _ ?_ (hown l hm x hx)
    rw [hfailures]
    exact (h.file l hm x hx).trans (Nat.le_add_right _ _)

theorem Bounded.reset (hinj : Set.InjOn limitKey logins)
    (hrequests : s.requests = before ++ ⟨login, some true⟩ :: after) (saved : Bool) :
    Bounded logins { s with
      store := s.store.resetFailedAttempts s.now (limitKey login) saved
      requests := before ++ after
      tries := Function.update s.tries login [] } := by
  have hold : ∀ r ∈ before ++ after, r ∈ s.requests := fun r hr =>
    hrequests ▸ mem_of_mem_others hr
  have hl : login ∈ logins := h.known ⟨login, some true⟩
    (hrequests ▸ List.mem_append_right _ List.mem_cons_self)
  have htimes : ∀ k x, s.now - lockoutSeconds ≤ x →
      later x ((s.store.resetFailedAttempts s.now (limitKey login) saved).times k) =
        if k = limitKey login then 0 else later x (s.store.times k) :=
    fun k x hx => later_resetFailedAttempts _ _ _ _ hx
  have hless : ∀ k x, s.now - lockoutSeconds ≤ x →
      later x ((s.store.resetFailedAttempts s.now (limitKey login) saved).times k) ≤
        later x (s.store.times k) := by
    intro k x hx
    rw [htimes k x hx]
    split
    · exact Nat.zero_le _
    · exact le_refl _
  have hown : ∀ l ∈ logins, ∀ x, s.now - lockoutSeconds ≤ x →
      later x ((s.store.resetFailedAttempts s.now (limitKey login) saved).times (limitKey l)) ≤
        later x (s.failures l) := fun l hm x hx => (hless _ x hx).trans (h.own l hm x hx)
  refine ⟨fun r hr => h.known r (hold r hr), fun l t ht => ?_, fun l hm x hx => ?_,
    fun r hr hnone => ?_, fun l x => ?_, hown, fun l hm x hx => ?_⟩
  · dsimp only at ht
    rw [Function.update_apply] at ht
    split at ht
    · exact absurd ht List.not_mem_nil
    · exact h.past l t ht
  · have hcounted := h.counted l hm x hx
    dsimp only
    rw [Function.update_apply]
    by_cases heq : l = login
    · rw [if_pos heq]
      exact Nat.zero_le _
    · have hne : limitKey l ≠ limitKey login := fun hkey => heq (hinj hm hl hkey)
      rw [hrequests, unrecorded_split, if_neg fun hand => heq hand.1.symm] at hcounted
      rw [if_neg heq, htimes _ x hx, if_neg hne]
      exact hcounted
  · have hroom := h.room r (hold r hr) hnone
    have hstore := hless (limitKey r.login) _ (le_refl _)
    rw [hrequests, inFlight_split] at hroom
    dsimp only
    omega
  · dsimp only
    rw [Function.update_apply]
    split
    · exact Nat.zero_le _
    · exact h.windows l x
  · exact later_disk_resetFailedAttempts _ _ _ _ (h.file l hm x hx) (hown l hm x hx)

theorem Bounded.restart (hnone : ∀ r ∈ s.requests, r.verified = none) (hsaved : s.store.Saved s.now) :
    Bounded logins { s with store := s.store.restart, requests := [] } := by
  refine ⟨fun r hr => absurd hr List.not_mem_nil, h.past, fun l hm x hx => ?_,
    fun r hr => absurd hr List.not_mem_nil, h.windows, h.file, h.file⟩
  have hcounted := h.counted l hm x hx
  have hzero : unrecorded l s.requests = 0 := by
    refine List.countP_eq_zero.mpr fun r hr => ?_
    rw [decide_eq_true_eq]
    exact fun hand => hand.2 (hnone r hr)
  have hkept := later_le_restart (limitKey l) hsaved hx
  dsimp only
  omega

/-- A step that is guarded. -/
theorem Bounded.step (hinj : Set.InjOn limitKey logins) {a : Act} (hguard : Guarded logins s a) :
    Bounded logins (Login.step s a) := by
  cases a with
  | wait d => exact h.wait d
  | check login => exact h.check hguard.1 hguard.2
  | verify i right active => exact h.verify i hguard
  | finish i saved =>
    rw [Login.step, Server.finish]
    split
    · next login hi =>
      obtain ⟨before, after, hrequests, herase, -⟩ := exists_split hi
      rw [herase]
      exact h.reset hinj hrequests saved
    · next login hi =>
      obtain ⟨before, after, hrequests, herase, -⟩ := exists_split hi
      rw [herase]
      exact h.record hinj hrequests saved
    · exact h
  | restart => exact h.restart hguard.1 hguard.2

end

/-- In a run in which every step is guarded, of logins with different keys, a login has at most
`MAX_ATTEMPTS` verifications in any `LOCKOUT_SECONDS` without a success, and is locked out only if
so many failures of its own were recorded. -/
theorem bounded_of_guarded (hinj : Set.InjOn limitKey logins) {now : ℚ} {acts : List Act}
    (hrun : Run step (Guarded logins) (.start now) acts s) :
    (∀ login x, ((s.tries login).countP fun t => x ≤ t ∧ t < x + lockoutSeconds) ≤ maxAttempts) ∧
      ∀ login ∈ logins, (s.store.isLockedOut s.now (limitKey login)).1 = true →
        maxAttempts ≤ (s.failures login).countP fun t => s.now - t < lockoutSeconds := by
  have hbounded := hrun.invariant (I := Bounded logins) (fun s a h hguard => h.step hinj hguard)
    (bounded_start now)
  refine ⟨hbounded.windows, fun login hl hlocked => ?_⟩
  have hcount := hbounded.own login hl _ (le_refl _)
  rw [← length_recent s.now (s.failures login), recent, ← List.countP_eq_length_filter] at hcount
  exact ((isLockedOut_iff _ _).mp hlocked).trans hcount

/-! ## Keys -/

theorem cut_at {c : Char} {v v' u u' : List Char} (hv : c ∉ v) (hv' : c ∉ v')
    (h : v ++ c :: u = v' ++ c :: u') : v = v' ∧ u = u' := by
  induction v generalizing v' with
  | nil =>
    cases v' with
    | nil => exact ⟨rfl, (List.cons.inj h).2⟩
    | cons d v' => exact absurd ((List.cons.inj h).1 ▸ List.mem_cons_self ..) hv'
  | cons d v ih =>
    cases v' with
    | nil => exact absurd ((List.cons.inj h).1 ▸ List.mem_cons_self ..) hv
    | cons d' v' =>
      obtain ⟨hd, htail⟩ := List.cons.inj h
      obtain ⟨rfl, hu⟩ := ih (fun hm => hv (List.mem_cons_of_mem _ hm))
        (fun hm => hv' (List.mem_cons_of_mem _ hm)) htail
      exact ⟨by rw [hd], hu⟩

theorem limitKey_injOn : Set.InjOn limitKey {login | ':' ∉ login.2.toList} := by
  rintro ⟨source, account⟩ h ⟨source', account'⟩ h' heq
  have hlist := congrArg String.toList heq
  simp only [limitKey, String.toList_append, List.append_assoc] at hlist
  have hrest : source.toList ++ ':' :: account.toList = source'.toList ++ ':' :: account'.toList :=
    List.append_cancel_left hlist
  -- The account comes after the last colon.
  have hrev := congrArg List.reverse hrest
  simp only [List.reverse_append, List.reverse_cons, List.append_assoc,
    List.singleton_append] at hrev
  obtain ⟨haccount, hsource⟩ := cut_at (fun hm => h (List.mem_reverse.mp hm))
    (fun hm => h' (List.mem_reverse.mp hm)) hrev
  exact Prod.ext (String.toList_injective (List.reverse_injective hsource))
    (String.toList_injective (List.reverse_injective haccount))

/-! ## A crowd, and a neighbour -/

/-- A login. -/
def admin : String × String := ("10.0.0.7", "admin")

/-- A failure, and a success a second later. -/
def quiet : List Act :=
  [.restart, .check admin, .verify 0 false true, .finish 0 true, .wait 1, .check admin,
    .verify 0 true true, .finish 0 true]

theorem bounded_of_guarded_quiet :
    (∀ login x, (((quiet.foldl step (.start 0)).tries login).countP fun t =>
      x ≤ t ∧ t < x + lockoutSeconds) ≤ maxAttempts) ∧
      ∀ login ∈ {login : String × String | ':' ∉ login.2.toList},
        ((quiet.foldl step (.start 0)).store.isLockedOut (quiet.foldl step (.start 0)).now
          (limitKey login)).1 = true →
        maxAttempts ≤ ((quiet.foldl step (.start 0)).failures login).countP fun t =>
          (quiet.foldl step (.start 0)).now - t < lockoutSeconds := by
  have hadmin : ':' ∉ admin.2.toList := by decide
  have hrun : Run step (Guarded {login | ':' ∉ login.2.toList}) (.start 0) quiet
      (quiet.foldl step (.start 0)) := by
    refine Run.cons ⟨fun r hr => absurd hr List.not_mem_nil, fun h => (nomatch h)⟩
      (Run.cons ⟨hadmin, ?_⟩ (Run.cons (fun h => nomatch h) (Run.cons True.intro
        (Run.cons True.intro (Run.cons ⟨hadmin, ?_⟩ (Run.cons id
          (Run.cons True.intro (Run.nil _))))))))
    · decide
    · decide +kernel
  exact bounded_of_guarded limitKey_injOn hrun

/-- Six requests pass the lockout before the first of them is verified. -/
def crowd : List Act :=
  [.check admin, .check admin, .check admin, .check admin, .check admin, .check admin,
    .verify 0 false true, .verify 1 false true, .verify 2 false true, .verify 3 false true,
    .verify 4 false true, .verify 5 false true]

/-- A login whose key is that of another address and another account. -/
def neighbour : String × String := ("2001:db8::1", "2:admin")

def fiveFailures : List Act :=
  (List.replicate 5 [.check neighbour, .verify 0 false true, .finish 0 true]).flatten

/-- Six passwords are verified at one time, and a login that never failed is locked out. -/
theorem crowd_and_neighbour :
    ((crowd.foldl step (.start 0)).tries admin).countP (fun t =>
        (0 : ℚ) ≤ t ∧ t < 0 + lockoutSeconds) = 6 ∧
      ((fiveFailures.foldl step (.start 0)).store.isLockedOut 0
        (limitKey ("2001:db8::1:2", "admin"))).1 = true ∧
      (fiveFailures.foldl step (.start 0)).failures ("2001:db8::1:2", "admin") = [] := by
  refine ⟨?_, ?_, ?_⟩
  · decide +kernel
  · decide +kernel
  · decide +kernel

end SentinelNet.Login
