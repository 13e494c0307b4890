import SentinelNet.Blueprint.Store

/-!
# Whether a draft saw the model it is applied to

A draft keeps the number of the revision that it was made from, and is refused when there is a newer
one.  Numbers are not contents: a write records a revision for every organization that has none, so
an organization that was added since the server started gets its first one by somebody else's write,
and a draft that was opened before it is refused though nothing that it saw has changed.

* `sound_until_overtaken`: until that happens, every database that is reached is sound.
* `overtaken_by_other_write`: it happens.
-/

namespace SentinelNet.Blueprint

open Observability PyDict PyText Outcomes StepRuns

/-! ## What drafts saw -/

/-- The database, with the tables of an organization when the base of its draft was taken, and
whether they changed since. -/
structure Watched where
  store : Store
  base : String → View
  changed : String → Bool

/-- Nothing happened yet. -/
def Watched.empty : Watched := ⟨Store.empty, fun _ => ⟨[], []⟩, fun _ => false⟩

/-- Whether a call takes the base of an organization's draft: it opens the draft, or aligns it. -/
def Store.takesBase (s : Store) (org : String) : Call → Bool
  | .addOps _ org' _ _ _ => org' = org ∧ has s.drafts org = false
  | .restore _ org' _ _ => org' = org ∧ has s.drafts org = false
  | .align org' _ => org' = org
  | _ => false

def Watched.step (lib : Library) (w : Watched) (c : Call) : Watched :=
  match w.store.call lib c with
  | .error _ => w
  | .ok s' =>
    { store := s'
      base := fun org => if w.store.takesBase org c then s'.view org else w.base org
      changed := fun org =>
        if w.store.takesBase org c then false
        else w.changed org || s'.view org ≠ w.store.view org }

/-- The draft was applied to the tables that its base describes, and they are stored with their
revision and without the draft. -/
structure Watched.Applies (lib : Library) (known : Known) (org : String) (w : Watched) (s' : Store)
    (d : Draft) (result : Work) : Prop where
  draft : get? w.store.drafts org = some d
  seen : w.store.view org = w.base org
  described : ∀ r ∈ w.store.revisions, r.org = org → r.rev = d.baseRev → r.snapshot = w.base org
  applied : applyOps lib (some known.probes) org w.store.locations w.store.links d.ops = .ok result
  locations : ∀ k, get? s'.locations k = get? result.locations k
  links : ∀ k, get? s'.links k = get? result.links k
  recorded : (revision s'.revisions org (latestRev s'.revisions org)).map (·.snapshot) =
    some (s'.view org)
  drafts : s'.drafts = del w.store.drafts org

/-- An application is a conflict if and only if the tables changed since the base of the draft was
taken, it applies what the draft saw, and every history goes from one on without gaps up to the
tables of now. -/
structure Watched.Sound (lib : Library) (w : Watched) : Prop where
  conflict : ∀ known devices org writer note,
    (∃ base current, w.store.apply lib known org devices writer note =
      .error (.conflict base current)) ↔
        has w.store.drafts org = true ∧ w.changed org = true
  applies : ∀ known devices org writer note s' answer,
    w.store.apply lib known org devices writer note = .ok (s', answer) →
      ∃ d result, w.Applies lib known org s' d result
  history : ∀ org, revisionsOf w.store.revisions org ≠ [] →
    (revisionsOf w.store.revisions org).map (·.rev) =
        List.range' 1 (revisionsOf w.store.revisions org).length ∧
      (revision w.store.revisions org (latestRev w.store.revisions org)).map (·.snapshot) =
        some (w.store.view org)

/-! ## When it is -/

def Call.records : Call → Bool
  | .start => true
  | .create .. => true
  | .update .. => true
  | .delete .. => true
  | .apply .. => true
  | _ => false

/-- A write that is accepted gives an organization with an open draft its first revision, and leaves
its tables as they are. -/
def Store.Overtakes (lib : Library) (s : Store) (c : Call) (org : String) : Prop :=
  c.records = true ∧ latestRev s.revisions org = 0 ∧
    ∃ s', s.call lib c = .ok s' ∧ has s'.drafts org = true ∧ s'.view org = s.view org

/-! ## Numbers of revisions -/

def Numbered (rows : List Revision) (org : String) (n : ℕ) : Prop :=
  (revisionsOf rows org).map (·.rev) = List.range' 1 n

/-- The last one of them has this snapshot. -/
structure Settled (rows : List Revision) (org : String) (n : ℕ) (v : View) : Prop where
  numbered : Numbered rows org n
  pos : n ≠ 0
  snapshot : (revision rows org n).map (·.snapshot) = some v

variable {rows rows' : List Revision} {org o : String} {n : ℕ} {v : View}

theorem foldl_max_range' (n : ℕ) : (List.range' 1 n).foldl max 0 = n := by
  induction n with
  | zero => rfl
  | succ n ih =>
    rw [List.range'_1_concat, List.foldl_append, ih, List.foldl_cons, List.foldl_nil]
    omega

theorem Numbered.latestRev_eq (h : Numbered rows org n) : latestRev rows org = n := by
  rw [latestRev, h, foldl_max_range']

theorem revision_eq (rows : List Revision) (org : String) (rev : ℕ) :
    revision rows org rev = (revisionsOf rows org).find? fun r => r.rev = rev := by
  rw [revision, revisionsOf, List.find?_filter]
  simp only [Bool.decide_and, Bool.decide_eq_true]

theorem revisionsOf_snoc (rows : List Revision) (r : Revision) (org : String) :
    revisionsOf (rows ++ [r]) org = revisionsOf rows org ++ if r.org = org then [r] else [] := by
  rw [revisionsOf, List.filter_append]
  by_cases h : r.org = org
  · rw [if_pos h, List.filter_cons_of_pos (by simpa using h)]
    rfl
  · rw [if_neg h, List.filter_cons_of_neg (by simpa using h)]
    rfl

theorem Settled.congr (h : Settled rows org n v) (heq : revisionsOf rows' org = revisionsOf rows org) :
    Settled rows' org n v where
  numbered := by rw [Numbered, heq]; exact h.numbered
  pos := h.pos
  snapshot := by rw [revision_eq, heq, ← revision_eq]; exact h.snapshot

theorem Numbered.congr (h : Numbered rows org n) (heq : revisionsOf rows' org = revisionsOf rows org) :
    Numbered rows' org n := by
  rw [Numbered, heq]
  exact h

theorem Numbered.snoc (h : Numbered rows org n) {r : Revision} (horg : r.org = org)
    (hrev : r.rev = n + 1) : Settled (rows ++ [r]) org (n + 1) r.snapshot := by
  have hrows : revisionsOf (rows ++ [r]) org = revisionsOf rows org ++ [r] := by
    rw [revisionsOf_snoc, if_pos horg]
  refine ⟨?_, Nat.succ_ne_zero n, ?_⟩
  · rw [Numbered, hrows, List.map_append, h, List.range'_1_concat, List.map_singleton, hrev,
      Nat.add_comm 1 n]
  · have hnone : (revisionsOf rows org).find? (fun x => x.rev = n + 1) = none := by
      refine List.find?_eq_none.mpr fun x hx hrev => ?_
      have hmem : x.rev ∈ List.range' 1 n := h ▸ List.mem_map_of_mem hx
      have hlt := (List.mem_range'_1.mp hmem).2
      have heq : x.rev = n + 1 := by simpa using hrev
      omega
    rw [revision_eq, hrows, List.find?_append, hnone, Option.none_or, List.find?_singleton,
      if_pos (by simpa using hrev)]
    rfl

theorem Settled.snapshot_eq (h : Settled rows org n v) {r : Revision}
    (hr : r ∈ revisionsOf rows org) (hrev : r.rev = n) : r.snapshot = v := by
  obtain ⟨r', hr', hsnapshot⟩ := Option.map_eq_some_iff.mp h.snapshot
  rw [revision_eq] at hr'
  have hmem := List.mem_of_find?_eq_some hr'
  have hrev' : r'.rev = n := by simpa using List.find?_some hr'
  have hnodup : ((revisionsOf rows org).map (·.rev)).Nodup := by
    rw [h.numbered]
    exact List.nodup_range'
  rw [← hsnapshot, List.inj_on_of_nodup_map hnodup hr hmem (hrev.trans hrev'.symm)]

section Records

variable {view : String → View} {writer source note : String}

theorem recordRevision_of_settled (h : Settled rows org n (view org)) :
    recordRevision view writer source note rows org = rows := by
  unfold recordRevision
  rw [h.numbered.latestRev_eq]
  exact if_pos ⟨h.pos, h.snapshot⟩

theorem settled_recordRevision (h : Numbered rows org n) (hnot : ¬ Settled rows org n (view org)) :
    Settled (recordRevision view writer source note rows org) org (n + 1) (view org) := by
  unfold recordRevision
  rw [h.latestRev_eq, if_neg fun hsame => hnot ⟨h, hsame.1, hsame.2⟩]
  exact h.snoc rfl rfl

theorem revisionsOf_recordRevision (hne : org ≠ o) :
    revisionsOf (recordRevision view writer source note rows o) org = revisionsOf rows org := by
  unfold recordRevision
  dsimp only
  split
  · rfl
  · rw [revisionsOf_snoc, if_neg (Ne.symm hne), List.append_nil]

variable {orgs : List String}

theorem Settled.recordAll (h : Settled rows org n (view org)) (orgs : List String) :
    Settled (orgs.foldl (recordRevision view writer source note) rows) org n (view org) := by
  induction orgs generalizing rows with
  | nil => exact h
  | cons o orgs ih =>
    by_cases ho : org = o
    · subst ho
      rw [List.foldl_cons, recordRevision_of_settled h]
      exact ih h
    · exact ih (h.congr (revisionsOf_recordRevision ho))

theorem Numbered.recordAll (h : Numbered rows org n) (hnot : ¬ Settled rows org n (view org))
    (horg : org ∈ orgs) :
    Settled (orgs.foldl (recordRevision view writer source note) rows) org (n + 1) (view org) := by
  induction orgs generalizing rows with
  | nil => cases horg
  | cons o orgs ih =>
    by_cases ho : org = o
    · subst ho
      exact (settled_recordRevision h hnot).recordAll orgs
    · have hsame := @revisionsOf_recordRevision rows org o view writer source note ho
      exact ih (h.congr hsame) (fun hs => hnot (hs.congr hsame.symm))
        ((List.mem_cons.mp horg).resolve_left ho)

theorem revisionsOf_recordAll (horg : org ∉ orgs) :
    revisionsOf (orgs.foldl (recordRevision view writer source note) rows) org =
      revisionsOf rows org := by
  induction orgs generalizing rows with
  | nil => rfl
  | cons o orgs ih =>
    obtain ⟨hne, hrest⟩ := not_or.mp (mt List.mem_cons.mpr horg)
    rw [List.foldl_cons, ih hrest, revisionsOf_recordRevision hne]

end Records

/-! ## What a call does -/

section Calls

variable {lib : Library} {s s' : Store} {c : Call}

/-- What an accepted call does to the database. -/
inductive Store.Moves (lib : Library) (s : Store) (c : Call) : Store → Prop where
  | write (s₁ : Store) (writer source note : String) (drafts : Dict Draft)
      (records : c.records = true) (tables : Recorded lib s₁.locations s₁.links)
      (orgs : s₁.orgs = s.orgs) (revisions : s₁.revisions = s.revisions)
      (kept : ∀ org d, get? drafts org = some d → get? s.drafts org = some d) :
      Moves lib s c { s₁.recordRevisions writer source note with drafts := drafts }
  | draft (org : String) (d : Draft) (quiet : c.records = false) (listed : org ∈ s.orgs)
      (taken : s.takesBase org c = true → d.baseRev = latestRev s.revisions org)
      (held : s.takesBase org c = false → ∃ d₀, get? s.drafts org = some d₀ ∧
        d.baseRev = d₀.baseRev)
      (others : ∀ o ≠ org, s.takesBase o c = false) :
      Moves lib s c { s with drafts := set s.drafts org d }
  | discard (org : String) (quiet : c.records = false) (untaken : ∀ o, s.takesBase o c = false) :
      Moves lib s c (s.discard org)
  | add (org : String) (quiet : c.records = false) (untaken : ∀ o, s.takesBase o c = false) :
      Moves lib s c (s.addOrganization org)

theorem takesBase_of_records (h : c.records) (org : String) : s.takesBase org c = false := by
  cases c with
  | addOps => cases h
  | align => cases h
  | restore => cases h
  | _ => rfl

theorem moves_of_save {writer : String} {r : Except Refusal Tables} (hrec : c.records)
    (htables : ∀ t, r = .ok t → Recorded lib t.locations t.links)
    (h : s.save writer r = .ok s') : s.Moves lib c s' := by
  cases r with
  | error e => cases h
  | ok t =>
    rw [← Except.ok.inj h]
    exact .write (s.put t) writer "locations" "" s.drafts hrec (htables t rfl).stored rfl rfl
      fun _ _ hd => hd

theorem putDraft_ok {d : Draft} (h : s.putDraft org d = .ok s') :
    org ∈ s.orgs ∧ s' = { s with drafts := set s.drafts org d } := by
  unfold Store.putDraft at h
  split at h
  · next horg => exact ⟨horg, (Except.ok.inj h).symm⟩
  · cases h

variable {known : Known}

theorem recorded_of_applyOps {ops : List Json} {w : Work} (hrec : Recorded lib s.locations s.links)
    (h : Blueprint.applyOps lib (some known.probes) org s.locations s.links ops = .ok w) :
    Recorded lib w.locations w.links := by
  have hstep := hrec.step (t := s.tables) (.apply known org ops)
  have happly : s.tables.apply lib known org ops = .ok ⟨w.locations, w.links⟩ := by
    rw [Tables.apply]
    exact congrArg (Except.map _) h
  simp only [Blueprint.step, happly] at hstep
  exact hstep

theorem applyOps_ok {ops : List Json} {w : Work} (h : s.applyOps lib known org ops = .ok w) :
    Blueprint.applyOps lib (some known.probes) org s.locations s.links ops = .ok w := by
  unfold Store.applyOps at h
  cases happly : Blueprint.applyOps lib (some known.probes) org s.locations s.links ops with
  | error e =>
    rw [happly] at h
    cases h
  | ok w' =>
    rw [happly] at h
    exact congrArg Except.ok (Except.ok.inj h)

theorem applyOps_ne_conflict (known : Known) (ops : List Json) (base current : ℕ) :
    s.applyOps lib known org ops ≠ .error (.conflict base current) := by
  unfold Store.applyOps
  cases Blueprint.applyOps lib (some known.probes) org s.locations s.links ops with
  | error e => exact fun h => nomatch Except.error.inj h
  | ok w => exact fun h => nomatch h

theorem apply_ok {devices : String → ℕ} {writer note : String} {answer : Answer}
    (h : s.apply lib known org devices writer note = .ok (s', answer)) :
    ∃ d w, get? s.drafts org = some d ∧ d.baseRev = latestRev s.revisions org ∧
      Blueprint.applyOps lib (some known.probes) org s.locations s.links d.ops = .ok w ∧
      s' = ((s.put ⟨w.locations, w.links⟩).recordRevisions writer d.origin note).discard org := by
  unfold Store.apply at h
  split at h
  · cases h
  · next d hd =>
    split at h
    · cases h
    · next hbase =>
      split at h
      · cases h
      · next w hw =>
        split at h
        · cases h
        · obtain ⟨rfl, -⟩ := Prod.mk.inj (Except.ok.inj h)
          exact ⟨d, w, hd, not_not.mp hbase, applyOps_ok hw, rfl⟩

theorem has_eq_false {d : Dict Draft} : has d org = false ↔ get? d org = none := by
  rw [has, Option.isSome_eq_false_iff, Option.isNone_iff_eq_none]

theorem moves_of_addOps {ops : List (Dict Json)} {source writer : String}
    (h : s.addOps lib known org ops source writer = .ok s') :
    s.Moves lib (.addOps known org ops source writer) s' := by
  unfold Store.addOps at h
  dsimp only at h
  split at h
  · cases h
  · split at h
    · cases h
    · split at h
      · cases h
      · obtain ⟨horg, rfl⟩ := putDraft_ok h
        refine .draft org _ rfl horg (fun htakes => ?_) (fun hheld => ?_) fun o ho => ?_
        · have hnone : get? s.drafts org = none := by
            simpa [Store.takesBase, has_eq_false] using htakes
          rw [hnone]
          rfl
        · cases hd : get? s.drafts org with
          | none => simp [Store.takesBase, has_eq_false, hd] at hheld
          | some d => exact ⟨d, rfl, rfl⟩
        · simp [Store.takesBase, Ne.symm ho]

theorem moves_of_restore {rev : ℕ} {writer : String}
    (h : s.restore lib known org rev writer = .ok s') :
    s.Moves lib (.restore known org rev writer) s' := by
  unfold Store.restore at h
  split at h
  · cases h
  · next hnone =>
    split at h
    · cases h
    · dsimp only at h
      split at h
      · cases h
      · split at h
        · cases h
        · obtain ⟨horg, rfl⟩ := putDraft_ok h
          refine .draft org _ rfl horg (fun _ => rfl) (fun hheld => ?_) fun o ho => ?_
          · simp [Store.takesBase, has_eq_false, hnone] at hheld
          · simp [Store.takesBase, Ne.symm ho]

theorem moves_of_replaceOps {ops : List (Dict Json)} {writer : String}
    (h : s.replaceOps lib known org ops writer = .ok s') :
    s.Moves lib (.replaceOps known org ops writer) s' := by
  unfold Store.replaceOps at h
  split at h
  · cases h
  · next d hd =>
    split at h
    · cases h
    · split at h
      · rw [← Except.ok.inj h]
        exact .discard org rfl fun _ => rfl
      · obtain ⟨horg, rfl⟩ := putDraft_ok h
        exact .draft org _ rfl horg (fun htakes => nomatch htakes) (fun _ => ⟨d, hd, rfl⟩)
          fun _ _ => rfl

theorem moves_of_align {writer : String} (h : s.align org writer = .ok s') :
    s.Moves lib (.align org writer) s' := by
  unfold Store.align at h
  split at h
  · cases h
  · obtain ⟨horg, rfl⟩ := putDraft_ok h
    refine .draft org _ rfl horg (fun _ => rfl) (fun hheld => ?_) fun o ho => ?_
    · simp [Store.takesBase] at hheld
    · simp [Store.takesBase, Ne.symm ho]

theorem Store.moves (hrec : Recorded lib s.locations s.links) (h : s.call lib c = .ok s') :
    s.Moves lib c s' := by
  cases c with
  | start =>
    rw [← Except.ok.inj h]
    exact .write s "" "migration" "" s.drafts rfl hrec rfl rfl fun _ _ hd => hd
  | addOrganization org =>
    rw [← Except.ok.inj h]
    exact .add org rfl fun _ => rfl
  | create known org name role subnets probe writer =>
    refine moves_of_save rfl (fun t ht => ?_) h
    have hstep := hrec.step (t := s.tables)
      (.create (s.registry known) org name role subnets probe)
    simp only [Blueprint.step, ht] at hstep
    exact hstep
  | update known id name role subnets probe writer =>
    exact moves_of_save rfl (fun t ht => hrec.updateLocation (t := s.tables) ht) h
  | delete id devices writer =>
    refine moves_of_save rfl (fun t ht => ?_) h
    have hstep := hrec.step (t := s.tables) (.delete id devices)
    simp only [Blueprint.step, ht] at hstep
    exact hstep
  | addOps known org ops source writer => exact moves_of_addOps h
  | replaceOps known org ops writer => exact moves_of_replaceOps h
  | align org writer => exact moves_of_align h
  | apply known devices org writer note =>
    have hmap : (s.apply lib known org devices writer note).map Prod.fst = .ok s' := h
    obtain ⟨⟨s₁, answer⟩, happly, rfl⟩ := map_ok hmap
    obtain ⟨d, w, -, -, hw, rfl⟩ := apply_ok happly
    have hw' : Recorded lib w.locations w.links := recorded_of_applyOps hrec hw
    refine .write (s.put ⟨w.locations, w.links⟩) writer d.origin note (del s.drafts org) rfl
      (hw'.stored (t := ⟨w.locations, w.links⟩)) rfl rfl fun o d' hd' => ?_
    rw [get?_del] at hd'
    split at hd'
    · cases hd'
    · exact hd'
  | restore known org rev writer => exact moves_of_restore h
  | discard org =>
    rw [← Except.ok.inj h]
    exact .discard org rfl fun _ => rfl

end Calls

/-! ## Numbers and contents -/

/-- The numbers of an organization's revisions go from one on, the last one has the tables of now,
and the base of a draft is the last one if and only if the tables are those that it saw. -/
structure Watched.Inv (lib : Library) (w : Watched) : Prop where
  recorded : Recorded lib w.store.locations w.store.links
  history : ∀ org, ∃ n, Numbered w.store.revisions org n ∧
    (n ≠ 0 → org ∈ w.store.orgs ∧ Settled w.store.revisions org n (w.store.view org))
  drafts : ∀ org d, get? w.store.drafts org = some d → org ∈ w.store.orgs ∧
    (w.changed org = true → d.baseRev < latestRev w.store.revisions org) ∧
    (w.changed org = false →
      d.baseRev = latestRev w.store.revisions org ∧ w.store.view org = w.base org)

variable {lib : Library} {w : Watched} {c : Call}

theorem Watched.Inv.empty : Watched.empty.Inv lib :=
  ⟨Recorded.nil, fun _ => ⟨0, rfl, fun h => absurd rfl h⟩, fun _ _ h => nomatch h⟩

theorem settled_recordRevisions {s : Store} (writer source note : String)
    (h : Numbered s.revisions org n) (horg : org ∈ s.orgs) :
    ∃ m, Settled (s.recordRevisions writer source note).revisions org m (s.view org) ∧
      (Settled s.revisions org n (s.view org) → m = n) ∧
      (¬ Settled s.revisions org n (s.view org) → m = n + 1) := by
  by_cases hs : Settled s.revisions org n (s.view org)
  · exact ⟨n, hs.recordAll _, fun _ => rfl, fun hnot => absurd hs hnot⟩
  · refine ⟨n + 1, h.recordAll hs ((List.mem_insertionSort _).mpr horg), fun h => absurd h hs,
      fun _ => rfl⟩

theorem Watched.Inv.write (hw : w.Inv lib) {s₁ : Store} {writer source note : String}
    {drafts : Dict Draft} (hcall : w.store.call lib c =
      .ok { s₁.recordRevisions writer source note with drafts := drafts })
    (hrec : c.records = true) (htables : Recorded lib s₁.locations s₁.links)
    (horgs : s₁.orgs = w.store.orgs) (hrevs : s₁.revisions = w.store.revisions)
    (hkept : ∀ org d, get? drafts org = some d → get? w.store.drafts org = some d)
    (hclear : ∀ org, ¬ w.store.Overtakes lib c org) : (w.step lib c).Inv lib := by
  have huntaken : ∀ org, w.store.takesBase org c = false := takesBase_of_records hrec
  rw [Watched.step, hcall]
  simp only [huntaken, Bool.false_eq_true, if_false]
  refine ⟨htables, fun org => ?_, fun org d hd => ?_⟩
  · obtain ⟨n, hn, hsome⟩ := hw.history org
    by_cases horg : org ∈ s₁.orgs
    · obtain ⟨m, hm, -, -⟩ := settled_recordRevisions writer source note (hrevs ▸ hn) horg
      exact ⟨m, hm.numbered, fun _ => ⟨horg, hm⟩⟩
    · have hzero : n = 0 := by
        by_contra hne
        exact horg (horgs ▸ (hsome hne).1)
      have hrows : revisionsOf (s₁.recordRevisions writer source note).revisions org =
          revisionsOf w.store.revisions org := by
        rw [Store.recordRevisions, hrevs]
        exact revisionsOf_recordAll (mt (List.mem_insertionSort _).mp horg)
      exact ⟨n, hn.congr hrows, fun hne => absurd hzero hne⟩
  · obtain ⟨horg, hchanged, hsame⟩ := hw.drafts org d (hkept org d hd)
    obtain ⟨n, hn, hsome⟩ := hw.history org
    obtain ⟨m, hm, hstays, hgrows⟩ :=
      settled_recordRevisions writer source note (hrevs ▸ hn) (horgs ▸ horg)
    rw [hrevs] at hstays hgrows
    rw [hn.latestRev_eq] at hchanged hsame
    refine ⟨horgs ▸ horg, fun hnow => ?_, fun hnow => ?_⟩
    · rw [hm.numbered.latestRev_eq]
      have hle : m = n ∨ m = n + 1 := (em _).imp hstays hgrows
      rcases Bool.or_eq_true_iff.mp hnow with hbefore | hdiffers
      · have hlt := hchanged hbefore
        omega
      · -- The last snapshot is the one of before, so that there is a new one.
        have hnot : ¬ Settled w.store.revisions org n (s₁.view org) := by
          intro hs
          have hlast := (hsome hs.pos).2.snapshot
          exact of_decide_eq_true hdiffers (Option.some.inj (hs.snapshot.symm.trans hlast))
        have hm' := hgrows hnot
        cases hbefore : w.changed org with
        | true =>
          have hlt := hchanged hbefore
          omega
        | false =>
          obtain ⟨hbase, -⟩ := hsame hbefore
          omega
    · obtain ⟨hbefore, hequal⟩ := Bool.or_eq_false_iff.mp hnow
      have hview : s₁.view org = w.store.view org := not_not.mp (of_decide_eq_false hequal)
      obtain ⟨hbase, hseen⟩ := hsame hbefore
      have hne : n ≠ 0 := by
        intro hzero
        refine hclear org ⟨hrec, hn.latestRev_eq.trans hzero, _, hcall, ?_, hview⟩
        rw [has, hd]
        rfl
      have hm' := hstays (hview ▸ (hsome hne).2)
      refine ⟨?_, hview.trans hseen⟩
      rw [hm.numbered.latestRev_eq, hm']
      exact hbase

theorem exists_orgs (s : Store) (org : String) : ∃ orgs,
    s.addOrganization org = { s with orgs := orgs } ∧ ∀ o ∈ s.orgs, o ∈ orgs := by
  rw [Store.addOrganization]
  split
  · exact ⟨s.orgs, rfl, fun _ ho => ho⟩
  · exact ⟨s.orgs ++ [org], rfl, fun _ ho => List.mem_append_left _ ho⟩

theorem Watched.Inv.step (hw : w.Inv lib) (hclear : ∀ org, ¬ w.store.Overtakes lib c org) :
    (w.step lib c).Inv lib := by
  cases hcall : w.store.call lib c with
  | error e =>
    rw [Watched.step, hcall]
    exact hw
  | ok s' =>
    cases Store.moves hw.recorded hcall with
    | write s₁ writer source note drafts hrec htables horgs hrevs hkept =>
      exact hw.write hcall hrec htables horgs hrevs hkept hclear
    | draft org d _ horg htaken hheld hothers =>
      rw [Watched.step, hcall]
      refine ⟨hw.recorded, hw.history, fun o d' hd' => ?_⟩
      have hget : get? (set w.store.drafts org d) o = some d' := hd'
      rw [get?_set] at hget
      by_cases ho : o = org
      · subst ho
        rw [if_pos rfl] at hget
        obtain rfl := Option.some.inj hget
        refine ⟨horg, ?_⟩
        cases htakes : w.store.takesBase o c with
        | true => simpa [htakes, Store.view] using htaken htakes
        | false =>
          obtain ⟨d₀, hd₀, hbase⟩ := hheld htakes
          rw [hbase]
          simpa [htakes, Store.view] using (hw.drafts o d₀ hd₀).2
      · rw [if_neg ho] at hget
        simpa [hothers o ho, Store.view] using hw.drafts o d' hget
    | discard org _ huntaken =>
      rw [Watched.step, hcall]
      refine ⟨hw.recorded, hw.history, fun o d' hd' => ?_⟩
      have hget : get? (del w.store.drafts org) o = some d' := hd'
      rw [get?_del] at hget
      split at hget
      · cases hget
      · simpa [huntaken o, Store.view, Store.discard] using hw.drafts o d' hget
    | add org _ huntaken =>
      obtain ⟨orgs, hadd, horgs⟩ := exists_orgs w.store org
      rw [Watched.step, hcall, hadd]
      refine ⟨hw.recorded, fun o => ?_, fun o d hd => ?_⟩
      · obtain ⟨n, hn, hsome⟩ := hw.history o
        exact ⟨n, hn, fun hne => ⟨horgs o (hsome hne).1, (hsome hne).2⟩⟩
      · obtain ⟨horg, hrest⟩ := hw.drafts o d hd
        exact ⟨horgs o horg, by simpa [huntaken o, Store.view] using hrest⟩

theorem Watched.Inv.run {calls : List Call} {w' : Watched}
    (hrun : Run (Watched.step lib) (fun w c => ∀ org, ¬ w.store.Overtakes lib c org) w calls w')
    (hw : w.Inv lib) : w'.Inv lib :=
  hrun.invariant (I := Watched.Inv lib) (fun _ _ hw hclear => hw.step hclear) hw

/-! ## What follows -/

theorem conflict_iff (hw : w.Inv lib) (known : Known) (devices : String → ℕ)
    (org writer note : String) :
    (∃ base current, w.store.apply lib known org devices writer note =
      .error (.conflict base current)) ↔
        has w.store.drafts org = true ∧ w.changed org = true := by
  cases hd : get? w.store.drafts org with
  | none =>
    have hhas : has w.store.drafts org = false := has_eq_false.mpr hd
    have happly : w.store.apply lib known org devices writer note = .error .noDraft := by
      unfold Store.apply
      rw [hd]
    rw [happly, hhas]
    refine ⟨?_, fun h => absurd h.1 Bool.false_ne_true⟩
    rintro ⟨_, _, h⟩
    cases h
  | some d =>
    have hhas : has w.store.drafts org = true := by
      rw [has, hd]
      rfl
    obtain ⟨-, hchanged, hsame⟩ := hw.drafts org d hd
    rw [hhas]
    by_cases hbase : d.baseRev = latestRev w.store.revisions org
    · have hunchanged : w.changed org = false := by
        by_contra hnow
        have hlt := hchanged (Bool.eq_true_of_not_eq_false hnow)
        omega
      rw [hunchanged]
      refine ⟨?_, fun h => absurd h.2 Bool.false_ne_true⟩
      rintro ⟨base, current, happly⟩
      unfold Store.apply at happly
      rw [hd] at happly
      dsimp only at happly
      rw [if_neg (not_not.mpr hbase)] at happly
      split at happly
      · next e he =>
        obtain rfl := Except.error.inj happly
        exact absurd he (applyOps_ne_conflict _ _ _ _)
      · split at happly
        · cases happly
        · cases happly
    · have hnow : w.changed org = true := by
        by_contra hnot
        exact hbase (hsame (Bool.eq_false_of_not_eq_true hnot)).1
      refine ⟨fun _ => ⟨rfl, hnow⟩, fun _ => ⟨d.baseRev, latestRev w.store.revisions org, ?_⟩⟩
      unfold Store.apply
      rw [hd]
      exact if_pos hbase

theorem exists_applies (hw : w.Inv lib) {known : Known} {devices : String → ℕ}
    {org writer note : String} {s' : Store} {answer : Answer}
    (h : w.store.apply lib known org devices writer note = .ok (s', answer)) :
    ∃ d result, w.Applies lib known org s' d result := by
  obtain ⟨d, result, hd, hbase, hresult, rfl⟩ := apply_ok h
  obtain ⟨horg, hchanged, hsame⟩ := hw.drafts org d hd
  obtain ⟨n, hn, hsome⟩ := hw.history org
  have hunchanged : w.changed org = false := by
    by_contra hnow
    have hlt := hchanged (Bool.eq_true_of_not_eq_false hnow)
    omega
  have hseen := (hsame hunchanged).2
  have hrec : Recorded lib result.locations result.links := recorded_of_applyOps hw.recorded hresult
  have hstored := @get?_stored_locations lib ⟨result.locations, result.links⟩ hrec
  have hstored' := @get?_stored_links lib ⟨result.locations, result.links⟩ hrec
  refine ⟨d, result, hd, hseen, fun r hr hrorg hrev => ?_, hresult, hstored, hstored', ?_, rfl⟩
  · rw [hbase, hn.latestRev_eq] at hrev
    have hmem : r ∈ revisionsOf w.store.revisions org :=
      List.mem_filter.mpr ⟨hr, by simpa using hrorg⟩
    have hne : n ≠ 0 := by
      have hpos : r.rev ∈ List.range' 1 n := hn ▸ List.mem_map_of_mem hmem
      have hle := (List.mem_range'_1.mp hpos).1
      omega
    exact ((hsome hne).2.snapshot_eq hmem hrev).trans hseen
  · obtain ⟨m, hm, -, -⟩ := @settled_recordRevisions org n
      (w.store.put ⟨result.locations, result.links⟩) writer d.origin note hn horg
    change (revision _ org (latestRev (Store.recordRevisions _ _ _ _).revisions org)).map _ = _
    rw [hm.numbered.latestRev_eq]
    exact hm.snapshot

theorem Watched.Inv.sound (hw : w.Inv lib) : w.Sound lib := by
  refine ⟨conflict_iff hw, fun known devices org writer note s' answer h => exists_applies hw h,
    fun org hrows => ?_⟩
  obtain ⟨n, hn, hsome⟩ := hw.history org
  have hlength : (revisionsOf w.store.revisions org).length = n := by
    rw [← List.length_map (f := (·.rev)), hn, List.length_range']
  have hne : n ≠ 0 := by
    rw [← hlength]
    exact mt List.length_eq_zero_iff.mp hrows
  rw [hlength, hn.latestRev_eq]
  exact ⟨hn, (hsome hne).2.snapshot⟩

theorem not_sound_of_overtakes (hw : w.Inv lib) {org : String}
    (h : w.store.Overtakes lib c org) : ¬ (w.step lib c).Sound lib := by
  obtain ⟨hrec, hzero, s', hcall, hhas, hview⟩ := h
  intro hsound
  cases Store.moves hw.recorded hcall with
  | draft _ _ hquiet => exact absurd (hrec.symm.trans hquiet) Bool.noConfusion
  | discard _ hquiet => exact absurd (hrec.symm.trans hquiet) Bool.noConfusion
  | add _ hquiet => exact absurd (hrec.symm.trans hquiet) Bool.noConfusion
  | write s₁ writer source note drafts _ htables horgs hrevs hkept =>
    obtain ⟨d, hd⟩ := Option.isSome_iff_exists.mp hhas
    obtain ⟨horg, hchanged, hsame⟩ := hw.drafts org d (hkept org d hd)
    obtain ⟨n, hn, -⟩ := hw.history org
    obtain ⟨m, hm, -, -⟩ :=
      settled_recordRevisions writer source note (hrevs ▸ hn) (horgs ▸ horg)
    have hunchanged : w.changed org = false := by
      by_contra hnow
      have hlt := hchanged (Bool.eq_true_of_not_eq_false hnow)
      omega
    have hbase : d.baseRev = 0 := (hsame hunchanged).1.trans hzero
    have hconflict := hsound.conflict ⟨[], [], List.not_mem_nil⟩ (fun _ => 0) org "" ""
    rw [Watched.step, hcall] at hconflict
    dsimp only at hconflict
    rw [takesBase_of_records hrec org, hunchanged, hview] at hconflict
    have happly := hconflict.mp ⟨0, m, ?_⟩
    · simpa using happly.2
    · unfold Store.apply
      rw [hd]
      dsimp only
      rw [hm.numbered.latestRev_eq, hbase]
      exact if_pos (Ne.symm hm.pos)

/-- **Drafts do not overwrite what they did not see, until one is overtaken.**  In every run in
which no write gives an organization with an open draft its first revision and leaves its tables as
they are, every database that is reached is sound; and so it stays after the next call, if and only
if that does not do it either. -/
theorem sound_until_overtaken {calls : List Call}
    (hrun : Run (Watched.step lib) (fun w c => ∀ org, ¬ w.store.Overtakes lib c org) Watched.empty
      calls w) :
    w.Sound lib ∧
      ∀ c, (w.step lib c).Sound lib ↔ ∀ org, ¬ w.store.Overtakes lib c org := by
  have hw : w.Inv lib := Watched.Inv.run hrun Watched.Inv.empty
  refine ⟨hw.sound, fun c => ⟨fun hsound org hovertakes => ?_, fun hclear => ?_⟩⟩
  · exact not_sound_of_overtakes hw hovertakes hsound
  · exact (hw.step hclear).sound

/-! ## A draft that is refused with reason, and one that is overtaken -/

/-- The probe of the centre. -/
def centralOnly : Known := ⟨[], ["central"], notMem_central⟩

def newBranch : Dict Json := [("op", .str "create_location"), ("name", .str "Roma")]

/-- The server starts with an organization, which gets a draft. -/
def opened : List Call :=
  [.addOrganization "acme", .start, .addOps centralOnly "acme" [newBranch] "manual" "anna"]

/-- Somebody else adds a location. -/
def milano : Call := .create centralOnly "acme" "Milano" "branch" [] "central" "bruno"

theorem Store.Overtakes.mem_keys {s : Store} {org : String} (hrec : Recorded lib s.locations s.links)
    (h : s.Overtakes lib c org) : org ∈ keys s.drafts := by
  obtain ⟨hrecords, -, s', hcall, hhas, -⟩ := h
  cases Store.moves hrec hcall with
  | draft _ _ hquiet => exact absurd (hrecords.symm.trans hquiet) Bool.noConfusion
  | discard _ hquiet => exact absurd (hrecords.symm.trans hquiet) Bool.noConfusion
  | add _ hquiet => exact absurd (hrecords.symm.trans hquiet) Bool.noConfusion
  | write s₁ writer source note drafts _ htables horgs hrevs hkept =>
    obtain ⟨d, hd⟩ := Option.isSome_iff_exists.mp hhas
    exact Blueprint.mem_keys.mpr ⟨d, hkept org d hd⟩

theorem sound_until_overtaken_milano :
    ((opened ++ [milano]).foldl (Watched.step ipv4Library) Watched.empty).Sound ipv4Library := by
  have hone : ∀ org, ¬ Watched.empty.store.Overtakes ipv4Library (.addOrganization "acme") org :=
    fun org h => nomatch h.1
  have htwo : ∀ org, ¬ (Watched.empty.step ipv4Library (.addOrganization "acme")).store.Overtakes
      ipv4Library .start org := by
    intro org h
    have hmem := h.mem_keys (Watched.Inv.empty.step hone).recorded
    exact nomatch hmem
  have hthree : ∀ org, ¬ (([.addOrganization "acme", .start] : List Call).foldl
      (Watched.step ipv4Library) Watched.empty).store.Overtakes ipv4Library
        (.addOps centralOnly "acme" [newBranch] "manual" "anna") org :=
    fun org h => nomatch h.1
  have hopened : (opened.foldl (Watched.step ipv4Library) Watched.empty).Inv ipv4Library :=
    ((Watched.Inv.empty.step hone).step htwo).step hthree
  have hfour : ∀ org, ¬ (opened.foldl (Watched.step ipv4Library)
      Watched.empty).store.Overtakes ipv4Library milano org := by
    intro org h
    have hmem := h.mem_keys hopened.recorded
    have hkeys : keys (opened.foldl (Watched.step ipv4Library) Watched.empty).store.drafts =
        ["acme"] := by
      decide
    rw [hkeys, List.mem_singleton] at hmem
    have hlatest : latestRev (opened.foldl (Watched.step ipv4Library)
        Watched.empty).store.revisions "acme" = 1 := by
      decide
    have hzero := h.2.1
    rw [hmem, hlatest] at hzero
    exact absurd hzero Nat.one_ne_zero
  exact (sound_until_overtaken
    (Run.cons hone (Run.cons htwo (Run.cons hthree (Run.cons hfour (Run.nil _)))))).1

/-- Two organizations are added while the server runs, one gets a draft, and the other one a
location. -/
def overtaken : List Call :=
  [.addOrganization "acme", .addOrganization "beta",
    .addOps centralOnly "acme" [newBranch] "manual" "anna",
    .create centralOnly "beta" "Milano" "branch" [] "central" "bruno"]

/-- The draft of the one is refused, and its tables are as they were. -/
theorem overtaken_by_other_write : ¬ ∀ calls : List Call,
    (calls.foldl (Watched.step ipv4Library) Watched.empty).Sound ipv4Library := by
  intro h
  have hconflict := (h overtaken).conflict centralOnly (fun _ => 0) "acme" "anna" ""
  have happly : (overtaken.foldl (Watched.step ipv4Library) Watched.empty).store.apply ipv4Library
      centralOnly "acme" (fun _ => 0) "anna" "" = .error (.conflict 0 1) := by
    decide
  have hsame : (overtaken.foldl (Watched.step ipv4Library) Watched.empty).changed "acme" =
      false := by
    decide
  have hchanged := (hconflict.mp ⟨0, 1, happly⟩).2
  rw [hsame] at hchanged
  exact Bool.noConfusion hchanged

end SentinelNet.Blueprint
