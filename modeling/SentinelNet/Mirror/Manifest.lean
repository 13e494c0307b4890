import SentinelNet.Lib.Runs
import SentinelNet.Mirror.Pass

/-!
# What a manifest promises

The restore script reads every file that the manifest lists and compares its hash.  The manifest has
hashes of the walk for what was sent or skipped, and hashes of the state for what could not be sent,
while the state moves on with passes that succeed as a whole only.

* `State`, `State.step`: the remote directory and the state, over passes.
* `restorable_of_settled`: the manifests of a run whose passes are settled are restorable.
-/

namespace SentinelNet.Mirror

open Assoc StepRuns

/-! ## The machine -/

/-- The remote directory, the hashes that the state knows and the manifest of the last pass, if it
published one.  What was last sent under a name, with which setting and with which hash, is kept to
speak about it. -/
structure State where
  remote : Remote
  known : Hashes
  published : Option Manifest
  sent : List (String × Bool × String)

/-- Nothing is known of a remote directory. -/
def State.start (remote : Remote) : State := ⟨remote, [], none, []⟩

/-- The name that the restore script reads. -/
def restoreRel (rel : String) (encrypted : Bool) : String :=
  if encrypted then rel ++ ".enc" else rel

section Machine

variable (t : Tools)

def noteSent (p : Pass) (sent : List (String × Bool × String)) (u : String × ℕ) :
    List (String × Bool × String) :=
  match p.upload u.1 with
  | .sent data _ => put sent (remoteName u.1 p.encrypt) (p.encrypt, sha256 t data)
  | _ => sent

/-- What was last sent, after a pass; the manifest and the script are sent at last. -/
def sentAfter (p : Pass) (s : Sending) (sent : List (String × Bool × String)) :
    List (String × Bool × String) :=
  let sent := s.uploaded.foldl (noteSent t p) sent
  if s.broken || p.manifest.isNone then sent
  else if p.script.isNone then erase sent manifestName
  else erase (erase sent manifestName) restoreName

def State.step (s : State) (p : Pass) : State :=
  let outcome := runMirror t p s.known s.remote
  { remote := outcome.remote
    known := recordRun s.known outcome.result
    published := outcome.published
    sent := sentAfter t p (sendAll t p s.remote (planUploads (p.hashes t) s.known)) s.sent }

/-- The restore script accepts every file of the manifest. -/
def Restorable (s : State) : Prop :=
  ∀ m ∈ s.published, ∀ e ∈ m.files, ∃ content,
    find s.remote (restoreRel e.rel m.encrypted) = some content ∧
      sha256 t (opened t m.encrypted content) = e.sha256

/-- A file that the remote takes is stored as it is. -/
structure Honest (p : Pass) : Prop where
  upload : ∀ rel data keeping, p.upload rel = .sent data keeping → keeping = .exact
  manifest : ∀ keeping ∈ p.manifest, keeping = .exact
  script : ∀ keeping ∈ p.script, keeping = .exact

/-- A pass publishes its manifest: no exception but `OSError` stops it. -/
def Publishes (s : State) (p : Pass) : Prop :=
  p.manifest ≠ none ∧ ∀ rel ∈ planUploads (p.hashes t) s.known, p.upload rel ≠ .broken

/-- A pass has nothing to promise that is not so: a file that it sends was not rewritten since the
walk; a file that it does not send, although the state knows a hash of it, was last sent under the
setting of the pass and with that hash; and no file that is sent in plain text has the name of the
manifest or of the script. -/
structure Settled (s : State) (p : Pass) : Prop where
  unchanged : ∀ f ∈ p.walked, find s.known f.1 ≠ some (sha256 t f.2) → ∀ data keeping,
    p.upload f.1 = .sent data keeping → sha256 t data = sha256 t f.2
  kept : ∀ f ∈ p.walked, ∀ h, find s.known f.1 = some h →
    h = sha256 t f.2 ∨ p.upload f.1 = .refused →
    find s.sent (remoteName f.1 p.encrypt) = some (p.encrypt, h)
  names : p.encrypt = false → ∀ f ∈ p.walked, f.1 ≠ manifestName ∧ f.1 ≠ restoreName

/-- The remote stores what it takes, and a pass that publishes its manifest is settled. -/
structure Careful (s : State) (p : Pass) : Prop where
  honest : Honest p
  settled : Publishes t s p → Settled t s p

end Machine

/-! ## The uploads -/

section Uploads

variable {t : Tools} {p : Pass} {s : Sending} {rel : String} {todo : List String}

theorem send_of_broken (h : s.broken) (rel : String) : send t p s rel = s := by
  rw [send, if_pos h]

theorem foldl_send_of_broken (h : s.broken) : todo.foldl (send t p) s = s := by
  induction todo with
  | nil => rfl
  | cons rel todo ih => rw [List.foldl_cons, send_of_broken h, ih]

theorem find_send_of_ne {rel' : String} (h : rel' ≠ rel) :
    find (send t p s rel').remote (remoteName rel p.encrypt) =
      find s.remote (remoteName rel p.encrypt) := by
  have hname : remoteName rel' p.encrypt ≠ remoteName rel p.encrypt :=
    fun heq => h (remoteName_injective p.encrypt heq)
  rw [send]
  split
  · rfl
  · split
    · rfl
    · rfl
    · next data keeping _ =>
      rcases keeping with _ | (_ | content)
      · exact (find_put ..).trans (if_neg hname)
      · exact (find_erase ..).trans (if_neg hname)
      · exact (find_put ..).trans (if_neg hname)

theorem find_foldl_send (h : rel ∈ todo → ∀ data keeping, p.upload rel ≠ .sent data keeping) :
    find (todo.foldl (send t p) s).remote (remoteName rel p.encrypt) =
      find s.remote (remoteName rel p.encrypt) := by
  induction todo generalizing s with
  | nil => rfl
  | cons rel' todo ih =>
    rw [List.foldl_cons, ih fun hmem => h (List.mem_cons_of_mem rel' hmem)]
    by_cases heq : rel' = rel
    · subst heq
      have hnot := h List.mem_cons_self
      rw [send]
      split
      · rfl
      · split
        · rfl
        · rfl
        · next data keeping hsent => exact absurd hsent (hnot data keeping)
    · exact find_send_of_ne heq

theorem find_foldl_send_sent (hmem : rel ∈ todo) {data : Bytes}
    (hsent : p.upload rel = .sent data .exact) (hend : (todo.foldl (send t p) s).broken = false) :
    find (todo.foldl (send t p) s).remote (remoteName rel p.encrypt) =
      some (body t p.encrypt data) := by
  induction todo generalizing s with
  | nil => cases hmem
  | cons rel' todo ih =>
    rw [List.foldl_cons] at hend ⊢
    by_cases hlater : rel ∈ todo
    · exact ih hlater hend
    · have heq : rel = rel' := (List.mem_cons.mp hmem).resolve_right hlater
      subst heq
      rw [find_foldl_send fun hin => absurd hin hlater]
      by_cases hbroken : s.broken = true
      · rw [send_of_broken hbroken, foldl_send_of_broken hbroken, hbroken] at hend
        cases hend
      · rw [send, if_neg hbroken, hsent]
        exact (find_put ..).trans (if_pos rfl)

theorem mem_failed (hend : (todo.foldl (send t p) s).broken = false) :
    rel ∈ (todo.foldl (send t p) s).failed ↔
      rel ∈ s.failed ∨ (rel ∈ todo ∧ p.upload rel = .refused) := by
  induction todo generalizing s with
  | nil => simp
  | cons rel' todo ih =>
    rw [List.foldl_cons] at hend ⊢
    rw [ih hend]
    by_cases hbroken : s.broken = true
    · rw [send_of_broken hbroken, foldl_send_of_broken hbroken, hbroken] at hend
      cases hend
    · rw [send, if_neg hbroken]
      cases hup : p.upload rel' with
      | refused =>
        rw [List.mem_append, List.mem_singleton, List.mem_cons]
        constructor
        · rintro ((h | rfl) | h)
          · exact .inl h
          · exact .inr ⟨.inl rfl, hup⟩
          · exact .inr ⟨.inr h.1, h.2⟩
        · rintro (h | ⟨heq | h, hr⟩)
          · exact .inl (.inl h)
          · exact .inl (.inr heq)
          · exact .inr ⟨h, hr⟩
      | broken =>
        have hnot : ¬ (rel = rel' ∧ p.upload rel = .refused) := by
          rintro ⟨rfl, hr⟩
          exact nomatch hup.symm.trans hr
        simp only [List.mem_cons]
        tauto
      | sent data keeping =>
        have hnot : ¬ (rel = rel' ∧ p.upload rel = .refused) := by
          rintro ⟨rfl, hr⟩
          exact nomatch hup.symm.trans hr
        simp only [List.mem_cons]
        tauto

theorem broken_foldl_send (hs : s.broken = false) (h : ∀ rel ∈ todo, p.upload rel ≠ .broken) :
    (todo.foldl (send t p) s).broken = false := by
  induction todo generalizing s with
  | nil => exact hs
  | cons rel todo ih =>
    refine ih ?_ fun rel' hrel' => h rel' (List.mem_cons_of_mem rel hrel')
    rw [send, if_neg (by rw [hs]; exact Bool.false_ne_true)]
    cases hup : p.upload rel with
    | refused => exact hs
    | broken => exact absurd hup (h rel List.mem_cons_self)
    | sent data keeping => exact hs

theorem not_broken_of_foldl_send (hend : (todo.foldl (send t p) s).broken = false) :
    ∀ rel ∈ todo, p.upload rel ≠ .broken := by
  induction todo generalizing s with
  | nil => exact fun rel hrel => nomatch hrel
  | cons rel todo ih =>
    rw [List.foldl_cons] at hend
    intro rel' hrel' hup
    rcases List.mem_cons.mp hrel' with rfl | hrel'
    · have hbroken : (send t p s rel').broken = true := by
        rw [send]
        split
        · assumption
        · rw [hup]
      rw [foldl_send_of_broken hbroken, hbroken] at hend
      cases hend
    · exact ih hend rel' hrel' hup

end Uploads

/-! ## What was last sent -/

section Sent

variable {t : Tools} {p : Pass}

/-- The remote directory has what was last sent under each name. -/
def Tracks (t : Tools) (remote : Remote) (sent : List (String × Bool × String)) : Prop :=
  ∀ name encrypted h, find sent name = some (encrypted, h) →
    ∃ content, find remote name = some content ∧ sha256 t (opened t encrypted content) = h

variable {sent : List (String × Bool × String)}

theorem Tracks.put_erase {remote : Remote}
    (h : Tracks t remote sent) (name : String) (content : Bytes) :
    Tracks t (put remote name content) (erase sent name) := by
  intro name' encrypted hash hfind
  rw [find_erase] at hfind
  split at hfind
  · cases hfind
  · next hne =>
    obtain ⟨content', hcontent, hhash⟩ := h name' encrypted hash hfind
    exact ⟨content', (find_put ..).trans ((if_neg hne).trans hcontent), hhash⟩

theorem Tracks.put_put {remote : Remote}
    (h : Tracks t remote sent) (name : String) (encrypted : Bool) (data : Bytes) :
    Tracks t (put remote name (body t encrypted data))
      (put sent name (encrypted, sha256 t data)) := by
  intro name' encrypted' hash hfind
  rw [find_put] at hfind
  rw [find_put]
  split at hfind
  · next heq =>
    cases hfind
    exact ⟨_, if_pos heq, by rw [opened_body]⟩
  · next hne =>
    obtain ⟨content, hcontent, hhash⟩ := h name' encrypted' hash hfind
    exact ⟨content, (if_neg hne).trans hcontent, hhash⟩

theorem tracks_send (hp : Honest p) {s : Sending}
    (h : Tracks t s.remote (s.uploaded.foldl (noteSent t p) sent)) (rel : String) :
    Tracks t (send t p s rel).remote
      ((send t p s rel).uploaded.foldl (noteSent t p) sent) := by
  by_cases hbroken : s.broken = true
  · rw [send_of_broken hbroken]
    exact h
  · rw [send, if_neg hbroken]
    cases hup : p.upload rel with
    | refused => exact h
    | broken => exact h
    | sent data keeping =>
      cases hp.upload rel data keeping hup
      rw [List.foldl_append, List.foldl_cons, List.foldl_nil, noteSent, hup]
      exact h.put_put (remoteName rel p.encrypt) p.encrypt data

theorem tracks_foldl_send (hp : Honest p) (todo : List String) {s : Sending}
    (h : Tracks t s.remote (s.uploaded.foldl (noteSent t p) sent)) :
    Tracks t (todo.foldl (send t p) s).remote
      ((todo.foldl (send t p) s).uploaded.foldl (noteSent t p) sent) := by
  induction todo generalizing s with
  | nil => exact h
  | cons rel todo ih => exact ih (tracks_send hp h rel)

theorem tracks_step (hp : Honest p) {s : State} (h : Tracks t s.remote s.sent) :
    Tracks t (s.step t p).remote (s.step t p).sent := by
  have hsent : Tracks t (sendAll t p s.remote (planUploads (p.hashes t) s.known)).remote
      ((sendAll t p s.remote (planUploads (p.hashes t) s.known)).uploaded.foldl
        (noteSent t p) s.sent) :=
    tracks_foldl_send hp _ h
  simp only [State.step, runMirror, sentAfter]
  cases hbroken : (sendAll t p s.remote (planUploads (p.hashes t) s.known)).broken with
  | true => exact hsent
  | false =>
    cases hmanifest : p.manifest with
    | none => exact hsent
    | some keeping =>
      cases hp.manifest keeping hmanifest
      cases hscript : p.script with
      | none => exact hsent.put_erase manifestName _
      | some keeping =>
        cases hp.script keeping hscript
        exact (hsent.put_erase manifestName _).put_erase restoreName _

end Sent

/-! ## What is published -/

section Published

variable {t : Tools} {p : Pass} {known : Hashes} {remote : Remote}

theorem mem_planUploads {local' : Hashes} {rel : String} :
    rel ∈ planUploads local' known ↔ ∃ h, (rel, h) ∈ local' ∧ find known rel ≠ some h := by
  rw [planUploads, List.mem_insertionSort, List.mem_map]
  constructor
  · rintro ⟨⟨rel', h⟩, hmem, rfl⟩
    exact ⟨h, (List.mem_filter.mp hmem).1, of_decide_eq_true (List.mem_filter.mp hmem).2⟩
  · rintro ⟨h, hmem, hne⟩
    exact ⟨(rel, h), List.mem_filter.mpr ⟨hmem, decide_eq_true hne⟩, rfl⟩

theorem walked_mem_planUploads {f : String × Bytes} (hf : f ∈ p.walked) :
    f.1 ∈ planUploads (p.hashes t) known ↔ find known f.1 ≠ some (sha256 t f.2) := by
  rw [mem_planUploads]
  constructor
  · rintro ⟨h, hmem, hne⟩
    obtain ⟨g, hg, heq⟩ := List.mem_map.mp hmem
    obtain ⟨hrel, rfl⟩ := Prod.mk.inj heq
    have hgf : g = f := List.inj_on_of_nodup_map p.nodup hg hf hrel
    rwa [hgf] at hne
  · exact fun hne => ⟨_, List.mem_map_of_mem hf, hne⟩

theorem exists_walked {rel : String} (h : rel ∈ planUploads (p.hashes t) known) :
    ∃ f ∈ p.walked, f.1 = rel := by
  obtain ⟨hash, hmem, -⟩ := mem_planUploads.mp h
  obtain ⟨f, hf, heq⟩ := List.mem_map.mp hmem
  exact ⟨f, hf, congrArg Prod.fst heq⟩

/-- A pass that publishes a manifest: its uploads were not broken off, and after them it writes
nothing but the manifest and the script. -/
theorem runMirror_published (hp : Honest p) {m : Manifest}
    (h : (runMirror t p known remote).published = some m) :
    (sendAll t p remote (planUploads (p.hashes t) known)).broken = false ∧
      p.manifest ≠ none ∧
      m = manifestOf t p known
        (sendAll t p remote (planUploads (p.hashes t) known)).failed ∧
      ∀ name, name ≠ manifestName → name ≠ restoreName →
        find (runMirror t p known remote).remote name =
          find (sendAll t p remote (planUploads (p.hashes t) known)).remote name := by
  revert h
  rw [runMirror]
  cases hbroken : (sendAll t p remote (planUploads (p.hashes t) known)).broken with
  | true => exact fun h => nomatch h
  | false =>
    cases hmanifest : p.manifest with
    | none => exact fun h => nomatch h
    | some keeping =>
      cases hp.manifest keeping hmanifest
      cases hscript : p.script with
      | none =>
        intro h
        refine ⟨rfl, Option.some_ne_none _, (Option.some.inj h).symm, fun name hm _ => ?_⟩
        exact (find_put ..).trans (if_neg (Ne.symm hm))
      | some keeping =>
        cases hp.script keeping hscript
        intro h
        refine ⟨rfl, Option.some_ne_none _, (Option.some.inj h).symm, fun name hm hr => ?_⟩
        exact (find_put ..).trans ((if_neg (Ne.symm hr)).trans
          ((find_put ..).trans (if_neg (Ne.symm hm))))

theorem Settled.remoteName_ne {s : State} (h : Settled t s p) {f : String × Bytes}
    (hf : f ∈ p.walked) :
    remoteName f.1 p.encrypt ≠ manifestName ∧ remoteName f.1 p.encrypt ≠ restoreName := by
  cases henc : p.encrypt with
  | false => exact h.names henc f hf
  | true => exact remoteName_encrypted_ne f.1

theorem restorable_step {s : State} (htracks : Tracks t s.remote s.sent) (hp : Careful t s p) :
    Restorable t (s.step t p) := by
  intro m hm e he
  obtain ⟨hbroken, hmanifest, rfl, hremote⟩ := runMirror_published hp.honest hm
  have hwhole := not_broken_of_foldl_send hbroken
  have hset : Settled t s p := hp.settled ⟨hmanifest, hwhole⟩
  have hthere : ∀ f ∈ p.walked, find (s.step t p).remote (remoteName f.1 p.encrypt) =
      find (sendAll t p s.remote (planUploads (p.hashes t) s.known)).remote
        (remoteName f.1 p.encrypt) :=
    fun f hf => hremote _ (hset.remoteName_ne hf).1 (hset.remoteName_ne hf).2
  rcases List.mem_append.mp ((List.mem_insertionSort _).mp he) with he | he
  · obtain ⟨f, hf, rfl⟩ := List.mem_map.mp he
    obtain ⟨hf, hnot⟩ := List.mem_filter.mp hf
    have hnot := of_decide_eq_true hnot
    have hback : ∀ content,
        find (sendAll t p s.remote (planUploads (p.hashes t) s.known)).remote
          (remoteName f.1 p.encrypt) = some content →
        find (s.step t p).remote (restoreRel f.1 p.encrypt) = some content :=
      fun content h => (hthere f hf).trans h
    by_cases hknown : find s.known f.1 = some (sha256 t f.2)
    · -- The file is skipped.
      have hout : f.1 ∉ planUploads (p.hashes t) s.known :=
        fun hin => (walked_mem_planUploads hf).mp hin hknown
      obtain ⟨content, hcontent, hhash⟩ :=
        htracks _ _ _ (hset.kept f hf _ hknown (.inl rfl))
      exact ⟨content, hback content ((find_foldl_send fun hin => absurd hin hout).trans hcontent),
        hhash⟩
    · have hin := (walked_mem_planUploads hf).mpr hknown
      cases hup : p.upload f.1 with
      | refused => exact absurd ((mem_failed hbroken).mpr (.inr ⟨hin, hup⟩)) hnot
      | broken => exact absurd hup (hwhole f.1 hin)
      | sent data keeping =>
        cases hp.honest.upload f.1 data keeping hup
        refine ⟨_, hback _ (find_foldl_send_sent hin hup hbroken), ?_⟩
        exact (congrArg (sha256 t) (opened_body t p.encrypt data)).trans
          (hset.unchanged f hf hknown data _ hup)
  · -- The upload of the file was refused.
    obtain ⟨rel, hrel, hentry⟩ := List.mem_filterMap.mp he
    obtain ⟨h, hknown, rfl⟩ := Option.map_eq_some_iff.mp hentry
    obtain ⟨hin, hup⟩ := ((mem_failed hbroken).mp hrel).resolve_left List.not_mem_nil
    obtain ⟨f, hf, rfl⟩ := exists_walked hin
    obtain ⟨content, hcontent, hhash⟩ := htracks _ _ _ (hset.kept f hf h hknown (.inr hup))
    have hkept : find (sendAll t p s.remote (planUploads (p.hashes t) s.known)).remote
        (remoteName f.1 p.encrypt) = find s.remote (remoteName f.1 p.encrypt) := by
      refine find_foldl_send fun _ data keeping => ?_
      rw [hup]
      exact nofun
    exact ⟨content, (hthere f hf).trans (hkept.trans hcontent), hhash⟩

/-- The manifests of a run whose passes are settled are restorable. -/
theorem restorable_of_settled (t : Tools) (remote : Remote) (passes : List Pass) (s : State)
    (hrun : Run (State.step t) (Careful t) (State.start remote) passes s) : Restorable t s := by
  have hinv : Tracks t s.remote s.sent ∧ Restorable t s := by
    refine hrun.invariant (I := fun s => Tracks t s.remote s.sent ∧ Restorable t s)
      (fun s p h hp => ⟨tracks_step hp.honest h.1, restorable_step h.1 hp⟩) ⟨?_, ?_⟩
    · exact fun name encrypted h hfind => nomatch hfind
    · exact fun m hm => nomatch hm
  exact hinv.2

end Published

/-! ## Two passes -/

def firstConfig : Bytes := [0x61]

def secondConfig : Bytes := [0x62]

/-- The hashes of the two configurations. -/
def someTools : Tools where
  hexdigest data :=
    if data = firstConfig then "ca978112ca1bbdcafac231b39a23dc4da786eff8147c4e72b9807785afee48bb"
    else "3e23e8160039594a33894f6564e1b1348bbd7a0088d42c4acb73eeaed59c009d"
  encrypt data := 0x67 :: data
  decrypt := List.tail
  decrypt_encrypt := fun _ => rfl
  render m := m.files.map fun e => UInt8.ofNat e.rel.length
  script := []

def passOver (data : Bytes) (upload : Upload) : Pass where
  encrypt := true
  walked := [("core/startup.cfg", data)]
  nodup := List.nodup_singleton _
  upload := fun _ => upload
  manifest := some .exact
  script := some .exact
  sample := []
  raisesAfter := none

theorem honest_passOver {data : Bytes} {upload : Upload}
    (h : ∀ data' keeping, upload = .sent data' keeping → keeping = .exact) :
    Honest (passOver data upload) where
  upload _ := h
  manifest _ hkeeping := (Option.some.inj hkeeping).symm
  script _ hkeeping := (Option.some.inj hkeeping).symm

/-- A configuration is sent; then the next one is refused. -/
def firstPass : Pass := passOver firstConfig (.sent firstConfig .exact)

def secondPass : Pass := passOver secondConfig .refused

/-- The manifest of the second pass promises the first configuration, which is there. -/
theorem restorable_of_settled_refused :
    Restorable someTools
      ([firstPass, secondPass].foldl (State.step someTools) (State.start [])) := by
  refine restorable_of_settled someTools [] [firstPass, secondPass] _ (Run.cons ?_ (Run.cons ?_
    (Run.nil _)))
  · refine ⟨honest_passOver ?_, fun _ => ⟨?_, ?_, fun h => nomatch h⟩⟩
    · rintro data keeping ⟨⟩
      rfl
    · rintro f (_ | ⟨_, ⟨⟩⟩) - data keeping ⟨⟩
      rfl
    · exact fun f _ h hknown => nomatch hknown
  · refine ⟨honest_passOver fun data keeping h => (nomatch h),
      fun _ => ⟨?_, ?_, fun h => nomatch h⟩⟩
    · exact fun f _ _ data keeping h => nomatch h
    · rintro f (_ | ⟨_, ⟨⟩⟩) h hknown -
      have hfirst : h = sha256 someTools firstConfig :=
        Option.some.inj (hknown.symm.trans (by decide))
      subst hfirst
      decide

/-- A configuration is rewritten between the walk and its upload. -/
def rewrittenPass : Pass := passOver firstConfig (.sent secondConfig .exact)

/-- The manifest of a pass promises a configuration that nobody sent. -/
theorem rewritten_between_walk_and_upload :
    ¬ ∀ (t : Tools) (remote : Remote) (passes : List Pass), (∀ p ∈ passes, Honest p) →
      Restorable t (passes.foldl (State.step t) (State.start remote)) := by
  intro hall
  have hhonest : ∀ p ∈ [rewrittenPass], Honest p := by
    intro p hp
    rw [List.mem_singleton.mp hp]
    refine honest_passOver ?_
    rintro data keeping ⟨⟩
    rfl
  obtain ⟨content, hcontent, hhash⟩ := hall someTools [] [rewrittenPass] hhonest
    ⟨true, [⟨"core/startup.cfg", sha256 someTools firstConfig, some 1⟩]⟩ (by decide)
    ⟨"core/startup.cfg", sha256 someTools firstConfig, some 1⟩ (List.mem_singleton_self _)
  have hthere : content = 0x67 :: secondConfig :=
    Option.some.inj (hcontent.symm.trans (by decide))
  subst hthere
  exact absurd hhash (by decide)

end SentinelNet.Mirror
