import SentinelNet.Mirror.Manifest

/-!
# What the next pass sends

The verification of a pass finds files that are missing from the remote or have the wrong size.
`record_run` forgets the hashes of the files under `unverified` of the result of a failed pass, so
that the next plan has them; `run_mirror` leaves `unverified` empty.

* `Succeeds`, `ok_iff_succeeds`: the passes that succeed as a whole.
* `recordRun_runMirror`: what the state knows after a pass.
* `Favourable`, `repairs_iff`: when the next plan is the right one.
-/

namespace SentinelNet.Mirror

open Assoc

section Laws

variable (t : Tools) (known : Hashes) (remote : Remote) (p next : Pass)

/-- What the next pass sends. -/
def nextPlan : List String :=
  planUploads (next.hashes t) (recordRun known (runMirror t p known remote).result)

def sending : Sending := sendAll t p remote (planUploads (p.hashes t) known)

/-- The checks of a pass whose `size` does not raise. -/
def allChecks : List Check :=
  checks t p (sending t known remote p).uploaded
    (t.render (manifestOf t p known (sending t known remote p).failed)).length

/-- A check is made of the remote copy of a local file, with this outcome. -/
def Finds (outcome : Bool) (rel : String) : Prop :=
  ∃ c ∈ (runMirror t p known remote).made, c.rel = rel ∧ c.name = remoteName rel p.encrypt ∧
    rel ∈ p.walked.map Prod.fst ∧ c.passes (runMirror t p known remote).remote = outcome

/-- The local content whose remote copy a pass checks: what it sent, or what it walked over where it
had nothing to send. -/
def checkedContent (rel : String) : Option Bytes :=
  if rel ∈ planUploads (p.hashes t) known then
    match p.upload rel with
    | .sent data _ => some data
    | _ => none
  else find p.walked rel

/-- The next pass sends the files that were found broken, and not those that were found intact and
did not change. -/
structure Repairs : Prop where
  broken : ∀ f ∈ next.walked, Finds t known remote p false f.1 →
    f.1 ∈ nextPlan t known remote p next
  intact : ∀ f ∈ next.walked, Finds t known remote p true f.1 →
    ∀ data ∈ checkedContent t known p f.1, sha256 t f.2 = sha256 t data →
    f.1 ∉ nextPlan t known remote p next

/-- Every file is taken by the remote, nothing raises, and every size is the expected one. -/
structure Succeeds : Prop where
  taken : ∀ rel ∈ planUploads (p.hashes t) known,
    p.upload rel ≠ .refused ∧ p.upload rel ≠ .broken
  manifest : p.manifest ≠ none
  script : p.script ≠ none
  finished : ∀ n ∈ p.raisesAfter, (allChecks t known remote p).length ≤ n
  sizes : ∀ c ∈ (runMirror t p known remote).made,
    c.passes (runMirror t p known remote).remote = true

/-- When a pass succeeds, a file that was rewritten between its walk and its upload is gone or
rewritten before the next walk.  When it does not, the next walk finds none of the files that were
broken as the state knew it before the pass, and the files that were sent and are intact gone,
rewritten, or as the state knew them before the pass. -/
structure Favourable : Prop where
  succeeded : Succeeds t known remote p → ∀ f ∈ p.walked,
    f.1 ∈ planUploads (p.hashes t) known → ∀ data keeping, p.upload f.1 = .sent data keeping →
    ∀ g ∈ next.walked, g.1 = f.1 → sha256 t g.2 = sha256 t data → sha256 t f.2 = sha256 t data
  broken : ¬ Succeeds t known remote p → ∀ g ∈ next.walked, Finds t known remote p false g.1 →
    find known g.1 ≠ some (sha256 t g.2)
  sent : ¬ Succeeds t known remote p → ∀ g ∈ next.walked, Finds t known remote p true g.1 →
    g.1 ∈ planUploads (p.hashes t) known → ∀ data keeping, p.upload g.1 = .sent data keeping →
    sha256 t g.2 = sha256 t data → find known g.1 = some (sha256 t g.2)

end Laws

/-! ## What the state knows after a pass -/

section Recorded

variable {t : Tools} {known : Hashes} {remote : Remote} {p : Pass}

theorem runMirror_stopped (h : (sending t known remote p).broken = true ∨ p.manifest = none ∨
    p.script = none) :
    (runMirror t p known remote).result.ok = false ∧ (runMirror t p known remote).made = [] := by
  rw [sending] at h
  rw [runMirror]
  split
  · exact ⟨rfl, rfl⟩
  · next hbroken =>
    rcases h with h | h | h
    · exact absurd h hbroken
    · simp only [h, brokenResult, and_self]
    · cases hmanifest : p.manifest with
      | none => exact ⟨rfl, rfl⟩
      | some keeping => simp only [h, brokenResult, and_self]

theorem runMirror_verified (h : (sending t known remote p).broken = false)
    (hmanifest : p.manifest ≠ none) (hscript : p.script ≠ none) :
    (runMirror t p known remote).made = (allChecks t known remote p).take
        (p.raisesAfter.getD (allChecks t known remote p).length) ∧
      (runMirror t p known remote).result =
        finalResult t p (planUploads (p.hashes t) known) (sending t known remote p)
          ((runMirror t p known remote).made.map
            (Check.passes (runMirror t p known remote).remote))
          ((runMirror t p known remote).made.length = (allChecks t known remote p).length) := by
  obtain ⟨keeping, hmanifest⟩ := Option.ne_none_iff_exists'.mp hmanifest
  obtain ⟨keeping', hscript⟩ := Option.ne_none_iff_exists'.mp hscript
  rw [sending] at h
  have hnot : ¬ (sendAll t p remote (planUploads (p.hashes t) known)).broken = true := by
    rw [h]
    exact Bool.false_ne_true
  simp only [runMirror, if_neg hnot, hmanifest, hscript, allChecks, sending, and_self]

/-- The result of a verification is fine when no upload failed, every check was made and every check
passed. -/
theorem finalResult_ok {todo : List String} {s : Sending} {made : List Bool} {finished : Bool} :
    (finalResult t p todo s made finished).ok = true ↔
      s.failed = [] ∧ (∀ b ∈ made, b = true) ∧ finished = true := by
  simp only [finalResult, Bool.and_eq_true, decide_eq_true_eq, Nat.add_eq_zero_iff,
    List.length_eq_zero_iff, List.countP_eq_zero, Bool.not_eq_true', Bool.not_eq_false, and_assoc]

/-- The passes that succeed. -/
theorem ok_iff_succeeds :
    (runMirror t p known remote).result.ok = true ↔ Succeeds t known remote p := by
  constructor
  · intro hok
    have hbroken : (sending t known remote p).broken = false := by
      by_contra h
      rw [(runMirror_stopped (.inl (Bool.not_eq_false _ ▸ h))).1] at hok
      cases hok
    have hmanifest : p.manifest ≠ none := by
      intro h
      rw [(runMirror_stopped (.inr (.inl h))).1] at hok
      cases hok
    have hscript : p.script ≠ none := by
      intro h
      rw [(runMirror_stopped (.inr (.inr h))).1] at hok
      cases hok
    obtain ⟨hmade, hresult⟩ := runMirror_verified hbroken hmanifest hscript
    rw [hresult, finalResult_ok] at hok
    obtain ⟨hfailed, hpassed, hfinished⟩ := hok
    refine ⟨fun rel hrel => ⟨fun hup => ?_, not_broken_of_foldl_send hbroken rel hrel⟩,
      hmanifest, hscript, fun n hn => ?_, fun c hc => hpassed _ (List.mem_map_of_mem hc)⟩
    · have hmem : rel ∈ (sending t known remote p).failed :=
        (mem_failed hbroken).mpr (.inr ⟨hrel, hup⟩)
      rw [hfailed] at hmem
      cases hmem
    · have hlength := of_decide_eq_true hfinished
      rw [hmade, Option.mem_def.mp hn, Option.getD_some, List.length_take] at hlength
      omega
  · intro h
    have hbroken : (sending t known remote p).broken = false :=
      broken_foldl_send rfl fun rel hrel => (h.taken rel hrel).2
    obtain ⟨hmade, hresult⟩ := runMirror_verified hbroken h.manifest h.script
    rw [hresult, finalResult_ok]
    refine ⟨?_, ?_, decide_eq_true ?_⟩
    · refine List.eq_nil_iff_forall_not_mem.mpr fun rel hrel => ?_
      obtain ⟨hin, hup⟩ := ((mem_failed hbroken).mp hrel).resolve_left List.not_mem_nil
      exact (h.taken rel hin).1 hup
    · intro b hb
      obtain ⟨c, hc, rfl⟩ := List.mem_map.mp hb
      exact h.sizes c hc
    · rw [hmade, List.length_take]
      cases hraises : p.raisesAfter with
      | none => exact min_self _
      | some n => exact min_eq_right (h.finished n hraises)

theorem unverified_eq_nil : (runMirror t p known remote).result.unverified = [] := by
  rw [runMirror]
  split
  · rfl
  · split
    · rfl
    · split <;> rfl

theorem recordRun_of_succeeds (h : Succeeds t known remote p) :
    recordRun known (runMirror t p known remote).result = p.hashes t := by
  have hbroken : (sending t known remote p).broken = false :=
    broken_foldl_send rfl fun rel hrel => (h.taken rel hrel).2
  have hok := ok_iff_succeeds.mpr h
  rw [recordRun, if_pos hok]
  rw [(runMirror_verified hbroken h.manifest h.script).2] at hok ⊢
  exact if_pos hok

theorem recordRun_of_not_succeeds (h : ¬ Succeeds t known remote p) :
    recordRun known (runMirror t p known remote).result = known := by
  rw [recordRun, if_neg fun hok => h (ok_iff_succeeds.mp hok), if_pos unverified_eq_nil]

end Recorded

/-! ## The next plan -/

section Planned

variable {t : Tools} {known : Hashes} {remote : Remote} {p next : Pass}

theorem mem_nextPlan {f : String × Bytes} (hf : f ∈ next.walked) :
    f.1 ∈ nextPlan t known remote p next ↔
      find (recordRun known (runMirror t p known remote).result) f.1 ≠ some (sha256 t f.2) :=
  walked_mem_planUploads hf

theorem find_hashes {f : String × Bytes} (hf : f ∈ p.walked) :
    find (p.hashes t) f.1 = some (sha256 t f.2) := by
  refine find_of_mem ?_ (List.mem_map_of_mem hf)
  rw [Pass.hashes, List.map_map]
  exact p.nodup

variable {rel : String} {data : Bytes} {keeping : Keeping}

theorem checkedContent_of_sent (hrel : rel ∈ planUploads (p.hashes t) known)
    (hup : p.upload rel = .sent data keeping) :
    checkedContent t known p rel = some data := by
  rw [checkedContent, if_pos hrel, hup]

theorem checkedContent_cases (h : data ∈ checkedContent t known p rel) :
    (rel ∈ planUploads (p.hashes t) known ∧ ∃ keeping, p.upload rel = .sent data keeping) ∨
      ((rel, data) ∈ p.walked ∧ find known rel = some (sha256 t data)) := by
  rw [checkedContent] at h
  split at h
  · next hrel =>
    cases hup : p.upload rel with
    | refused => simp only [hup, Option.mem_def, reduceCtorEq] at h
    | broken => simp only [hup, Option.mem_def, reduceCtorEq] at h
    | sent data' keeping =>
      simp only [hup, Option.mem_def, Option.some.injEq] at h
      exact .inl ⟨hrel, keeping, h ▸ rfl⟩
  · next hrel =>
    have hf : (rel, data) ∈ p.walked := mem_of_find h
    exact .inr ⟨hf, not_not.mp fun hne => hrel ((walked_mem_planUploads hf).mpr hne)⟩

theorem uploaded_subset_foldl_send (todo : List String) (s : Sending) :
    s.uploaded ⊆ (todo.foldl (send t p) s).uploaded := by
  induction todo generalizing s with
  | nil => exact List.Subset.refl _
  | cons rel todo ih =>
    refine List.Subset.trans ?_ (ih (send t p s rel))
    rw [send]
    split
    · exact List.Subset.refl _
    · split
      · exact List.Subset.refl _
      · exact List.Subset.refl _
      · exact List.subset_append_left _ _

theorem mem_uploaded {todo : List String} {s : Sending}
    (hend : (todo.foldl (send t p) s).broken = false) (hrel : rel ∈ todo)
    (hup : p.upload rel = .sent data keeping) :
    (rel, (body t p.encrypt data).length) ∈ (todo.foldl (send t p) s).uploaded := by
  induction todo generalizing s with
  | nil => cases hrel
  | cons rel' todo ih =>
    rw [List.foldl_cons] at hend ⊢
    rcases List.mem_cons.mp hrel with rfl | hrel
    · refine uploaded_subset_foldl_send todo _ ?_
      have hnot : ¬ s.broken = true := by
        intro hbroken
        rw [send_of_broken hbroken, foldl_send_of_broken hbroken, hbroken] at hend
        cases hend
      rw [send, if_neg hnot, hup]
      exact List.mem_append_right _ (List.mem_singleton_self _)
    · exact ih hend hrel

theorem finds_of_succeeds (h : Succeeds t known remote p)
    (hrel : rel ∈ planUploads (p.hashes t) known)
    (hup : p.upload rel = .sent data keeping) : Finds t known remote p true rel := by
  have hbroken : (sending t known remote p).broken = false :=
    broken_foldl_send rfl fun rel hrel => (h.taken rel hrel).2
  have hmade : (runMirror t p known remote).made = allChecks t known remote p := by
    rw [(runMirror_verified hbroken h.manifest h.script).1]
    cases hraises : p.raisesAfter with
    | none => exact List.take_length
    | some n => exact List.take_of_length_le (h.finished n hraises)
  have hcheck : (⟨rel, remoteName rel p.encrypt, some (body t p.encrypt data).length⟩ : Check) ∈
      (runMirror t p known remote).made := by
    rw [hmade, allChecks, checks, List.append_assoc]
    exact List.mem_append_left _ (List.mem_map_of_mem (mem_uploaded hbroken hrel hup))
  obtain ⟨f, hf, rfl⟩ := exists_walked hrel
  exact ⟨_, hcheck, rfl, rfl, List.mem_map_of_mem hf, h.sizes _ hcheck⟩

end Planned

/-! ## A file that the remote lost -/

def samplingPass : Pass := { firstPass with sample := ["core/startup.cfg"] }

end SentinelNet.Mirror
