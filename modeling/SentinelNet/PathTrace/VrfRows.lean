import SentinelNet.PathTrace.Trace

/-!
# Routes of a VRF and the paths of the global table

The rows of a device are those of all its tables, and the path trace ranks them together.  So a path
stays what the global table makes of it exactly as long as, on every device it passes, each row of
a VRF that covers the address ranks strictly behind a global one.

* `course_trace_iff`: when the rows of the VRFs do not show in a path.
-/

namespace SentinelNet.PathTrace

open PyDict RouteTable StableSort

/-! ## The routes that decide -/

theorem Candidate.le_trans (a b c : Candidate) (hab : a.Le b) (hbc : b.Le c) : a.Le c := by
  unfold Candidate.Le at *
  omega

theorem Candidate.le_total (a b : Candidate) : a.Le b ∨ b.Le a := by
  unfold Candidate.Le
  omega

theorem sameChoice_iff {a b : Candidate} : sameChoice a b = true ↔ a.Le b ∧ b.Le a := by
  simp only [sameChoice, Bool.and_eq_true, beq_iff_eq, Candidate.Le]
  omega

/-- The rows that cover an address, in the order of the table. -/
def covering (rows : List CollectedRow) (dst : String) : List Candidate :=
  match addr dst with
  | none => []
  | some target => rows.filterMap (candidate? target)

/-- The routes that decide: the best one and those that tie with it. -/
def leadersOf (rows : List CollectedRow) (dst : String) : List Candidate :=
  leaders Candidate.Le (covering rows dst)

theorem candidates_eq (rows : List CollectedRow) (dst : String) :
    candidates rows dst = (covering rows dst).insertionSort Candidate.Le := by
  rw [candidates, covering]
  cases addr dst <;> rfl

variable {rows : List CollectedRow}

theorem mem_candidates {dst : String} {c : Candidate} :
    c ∈ candidates rows dst ↔ c ∈ covering rows dst := by
  rw [candidates_eq, List.mem_insertionSort]

theorem filter_sameChoice {dst : String} {best : Candidate}
    (h : (candidates rows dst).head? = some best) :
    (candidates rows dst).filter (sameChoice · best) = leadersOf rows dst := by
  rw [candidates_eq] at h
  have hties := ties_head Candidate.le_trans Candidate.le_total h
  rw [leadersOf, ← hties, candidates_eq, ties]
  refine List.filter_congr fun c _ => ?_
  rw [Bool.eq_iff_iff, sameChoice_iff, Bool.and_eq_true, decide_eq_true_eq, decide_eq_true_eq]

theorem head?_leadersOf (rows : List CollectedRow) (dst : String) :
    (leadersOf rows dst).head? = (candidates rows dst).head? := by
  rw [leadersOf, candidates_eq]
  exact head?_leaders Candidate.le_trans Candidate.le_total _

/-! ## What is seen of a path -/

/-- What is seen of a device of a path: how it decides and where it sends the packet. -/
structure Step where
  deviceIp : String
  outcome : Option Outcome
  best : Option Candidate
  tied : List Candidate
  nextDeviceIp : Option String

/-- The hops of a path with their best routes, and how it ends. -/
structure Course where
  steps : List Step
  outcome : Outcome
  deviceIp : Option String
  branches : List (Candidate × Option String)
  exitHop : Option String
  exitLocal : Bool

/-- A hop without the list of all its candidates. -/
def Hop.step (h : Hop) : Step := ⟨h.deviceIp, h.outcome, h.best, h.tied, h.nextDeviceIp⟩

/-- A path without the lists of all candidates. -/
def Path.course (p : Path) : Course :=
  ⟨p.hops.map Hop.step, p.outcome, p.deviceIp, p.branches, p.exitHop, p.exitLocal⟩

/-- What a device does with a packet, from the routes that decide on it. -/
def courseAt (fleet : Fleet) (current : String) : List Candidate → Course ⊕ (Step × String)
  | [] =>
    .inl ⟨[⟨current, some .nessunaRotta, none, [], none⟩], .nessunaRotta, none, [], none, false⟩
  | [best] =>
    if best.row.type = "connected" ∨ best.row.type = "local" then
      .inl ⟨[⟨current, some .consegna, some best, [], none⟩], .consegna, none, [], none, false⟩
    else
      match ownerOf best.row.gateway fleet.addresses current with
      | none =>
        .inl ⟨[⟨current, none, some best, [], none⟩], .fuoriInventario, none, [],
          some best.row.gateway,
          onOwnLan best.row.gateway ((get? fleet.addresses current).getD [])⟩
      | some nxt => .inr (⟨current, none, some best, [], some nxt⟩, nxt)
  | best :: second :: more =>
    let tied := best :: second :: more
    .inl ⟨[⟨current, some .biforcazione, some best, tied, none⟩], .biforcazione, none,
      tied.map fun r => (r, ownerOf r.row.gateway fleet.addresses current), none, false⟩

def firstStep : Course ⊕ (Step × String) → Option Step
  | .inl c => c.steps.head?
  | .inr (s, _) => some s

theorem course_hopAt (fleet : Fleet) (dst current : String) (rows : List CollectedRow) :
    (hopAt fleet dst current rows).map Path.course (Prod.map Hop.step id) =
      courseAt fleet current (leadersOf rows dst) := by
  have hhead := head?_leadersOf rows dst
  unfold hopAt
  rcases hc : candidates rows dst with _ | ⟨best, cand⟩
  · rw [hc, List.head?_nil, List.head?_eq_none_iff] at hhead
    rw [hhead]
    rfl
  · have hbest : (candidates rows dst).head? = some best := by rw [hc]; rfl
    have htied := filter_sameChoice hbest
    rw [hc] at htied hhead
    obtain ⟨lead, hlead⟩ := List.head?_eq_some_iff.mp hhead
    simp only [htied, hlead]
    rcases lead with _ | ⟨second, more⟩
    · rw [if_neg (by simp), courseAt]
      split
      · rfl
      · cases ownerOf best.row.gateway fleet.addresses current <;> rfl
    · rw [if_pos (by simp)]
      rfl

theorem firstStep_courseAt_injective (fleet : Fleet) (current : String) {l l' : List Candidate}
    (h : firstStep (courseAt fleet current l) = firstStep (courseAt fleet current l')) : l = l' := by
  have hread (l : List Candidate) : ∃ s, firstStep (courseAt fleet current l) = some s ∧
      l = if s.tied = [] then s.best.toList else s.tied := by
    rcases l with _ | ⟨best, _ | ⟨second, more⟩⟩
    · exact ⟨_, rfl, rfl⟩
    · rw [courseAt]
      split
      · exact ⟨_, rfl, rfl⟩
      · cases ownerOf best.row.gateway fleet.addresses current with
        | none => exact ⟨_, rfl, rfl⟩
        | some nxt => exact ⟨_, rfl, rfl⟩
    · exact ⟨_, rfl, rfl⟩
  obtain ⟨s, hs, hl⟩ := hread l
  obtain ⟨s', hs', hl'⟩ := hread l'
  rw [hs, hs'] at h
  rw [hl, hl', Option.some.inj h]

/-! ## Tables without the rows of a VRF -/

def globalRows (rows : List CollectedRow) : List CollectedRow := rows.filter fun r => r.vrf == ""

def globalOnly (tables : Dict (List CollectedRow)) : Dict (List CollectedRow) :=
  tables.map fun p => (p.1, globalRows p.2)

theorem get?_globalOnly (tables : Dict (List CollectedRow)) (d : String) :
    get? (globalOnly tables) d = (get? tables d).map globalRows := by
  induction tables with
  | nil => rfl
  | cons p tables ih =>
    rw [globalOnly, List.map_cons, get?_cons, get?_cons]
    split
    · rfl
    · exact ih

/-- Every row of a VRF that covers the address ranks strictly behind a global one. -/
def Outranked (rows : List CollectedRow) (dst : String) : Prop :=
  ∀ c ∈ candidates rows dst, c.row.vrf ≠ "" →
    ∃ g ∈ candidates rows dst, g.row.vrf = "" ∧ ¬ c.Le g

theorem row_of_candidate? {target : Ipv4.Addr} {r : CollectedRow} {c : Candidate}
    (h : candidate? target r = some c) : c.row = r := by
  unfold candidate? at h
  split at h
  · simp at h
  · split at h
    · split at h
      · rw [← Option.some.inj h]
      · simp at h
    · simp at h

theorem covering_globalRows (rows : List CollectedRow) (dst : String) :
    covering (globalRows rows) dst = (covering rows dst).filter fun c => c.row.vrf == "" := by
  rw [covering, covering]
  rcases addr dst with _ | target
  · rfl
  · induction rows with
    | nil => rfl
    | cons r rows ih =>
      simp only at ih ⊢
      rw [globalRows] at ih ⊢
      rcases hc : candidate? target r with _ | c
      · rw [List.filterMap_cons_none hc, ← ih, List.filter_cons]
        split
        · rw [List.filterMap_cons_none hc]
        · rfl
      · have hrow := row_of_candidate? hc
        rw [List.filterMap_cons_some hc, List.filter_cons, List.filter_cons, hrow, ← ih]
        split
        · rw [List.filterMap_cons_some hc]
        · rfl

theorem leadersOf_globalRows_iff (rows : List CollectedRow) (dst : String) :
    leadersOf rows dst = leadersOf (globalRows rows) dst ↔ Outranked rows dst := by
  rw [leadersOf, leadersOf, covering_globalRows,
    leaders_filter_iff Candidate.le_trans Candidate.le_total]
  simp only [Outranked, mem_candidates, beq_eq_false_iff_ne, beq_iff_eq]

/-! ## The walk -/

/-- The device to which a device forwards the packet, when it does. -/
def nextDevice (fleet : Fleet) (dst : String) (tables : Dict (List CollectedRow)) (d : String) :
    Option String :=
  (get? tables d).bind fun rows => (hopAt fleet dst d rows).getRight?.map Prod.snd

/-- The device reached in a number of steps. -/
def walkFrom (next : String → Option String) : ℕ → String → Option String
  | 0, d => some d
  | k + 1, d => (next d).bind (walkFrom next k)

theorem mem_of_walkFrom {next : String → Option String} {seen : List String}
    (hclosed : ∀ s ∈ seen, ∀ d, next s = some d → d ∈ seen) :
    ∀ (k : ℕ) {c d : String}, c ∈ seen → walkFrom next k c = some d → d ∈ seen
  | 0, c, d, hc, h => Option.some.inj h ▸ hc
  | k + 1, c, d, hc, h => by
    rw [walkFrom, Option.bind_eq_some_iff] at h
    obtain ⟨e, he, hd⟩ := h
    exact mem_of_walkFrom hclosed k (hclosed c hc e he) hd

variable (fleet : Fleet) (dst : String) (tables : Dict (List CollectedRow))

def OutrankedOn (d : String) : Prop := ∀ rows, get? tables d = some rows → Outranked rows dst

abbrev globalNext : String → Option String := nextDevice fleet dst (globalOnly tables)

/-- A course that starts with what a device does. -/
def resume (rest : String → Course) : Course ⊕ (Step × String) → Course
  | .inl c => c
  | .inr (s, nxt) => { rest nxt with steps := s :: (rest nxt).steps }

theorem course_traceFrom_succ {n : ℕ} {seen : List String} {current : String}
    (hrows : get? tables current = some rows) (hseen : current ∉ seen) :
    (traceFrom fleet dst tables (n + 1) seen current).course =
      resume (fun nxt => (traceFrom fleet dst tables n (current :: seen) nxt).course)
        (courseAt fleet current (leadersOf rows dst)) := by
  rw [← course_hopAt, traceFrom, hrows]
  simp only [if_neg hseen]
  rcases hopAt fleet dst current rows with path | ⟨hop, nxt⟩
  · rfl
  · rfl

theorem nextDevice_eq {current : String}
    (hrows : get? tables current = some rows) : nextDevice fleet dst tables current =
      (courseAt fleet current (leadersOf rows dst)).getRight?.map Prod.snd := by
  rw [← course_hopAt, nextDevice, hrows, Option.bind_some]
  rcases hopAt fleet dst current rows with path | ⟨hop, nxt⟩
  · rfl
  · rfl

theorem head?_resume (rest : String → Course) (fleet : Fleet) (current : String)
    (lead : List Candidate) : (resume rest (courseAt fleet current lead)).steps.head? =
      firstStep (courseAt fleet current lead) := by
  rcases courseAt fleet current lead with c | ⟨s, nxt⟩
  · rfl
  · rfl

theorem resume_inr_inj {rest rest' : String → Course} {s : Step} {nxt : String} :
    resume rest (.inr (s, nxt)) = resume rest' (.inr (s, nxt)) ↔ rest nxt = rest' nxt := by
  constructor
  · intro h
    rcases hr : rest nxt with ⟨steps, outcome, deviceIp, branches, exitHop, exitLocal⟩
    rcases hr' : rest' nxt with ⟨steps', outcome', deviceIp', branches', exitHop', exitLocal'⟩
    rw [resume, resume, hr, hr'] at h
    simp only [Course.mk.injEq, List.cons.injEq, true_and] at h
    rw [Course.mk.injEq]
    exact h
  · intro h
    rw [resume, resume, h]

/-- The path over all rows and the path over the global ones, from a device that the walk reaches
after devices on which the rows of the VRFs are outranked. -/
theorem course_traceFrom_iff : ∀ (n : ℕ) (seen : List String) (current : String),
    (∀ s ∈ seen, OutrankedOn dst tables s) →
    (∀ s ∈ seen, ∀ d, globalNext fleet dst tables s = some d → d ∈ seen ∨ d = current) →
    ((traceFrom fleet dst tables n seen current).course =
        (traceFrom fleet dst (globalOnly tables) n seen current).course ↔
      ∀ k < n, ∀ d, walkFrom (globalNext fleet dst tables) k current = some d →
        OutrankedOn dst tables d)
  | 0, seen, current, _, _ => iff_of_true rfl fun k hk => absurd hk (Nat.not_lt_zero k)
  | n + 1, seen, current, hout, hclosed => by
    rcases hrows : get? tables current with _ | rows
    · have hglobal : get? (globalOnly tables) current = none := by
        rw [get?_globalOnly, hrows, Option.map_none]
      have hnext : globalNext fleet dst tables current = none := by
        unfold globalNext nextDevice
        rw [hglobal, Option.bind_none]
      refine iff_of_true (by rw [traceFrom, traceFrom, hrows, hglobal]) fun k _ d hd => ?_
      cases k with
      | zero =>
        obtain rfl : current = d := Option.some.inj hd
        intro rows hr
        exact absurd (hrows.symm.trans hr) (by simp)
      | succ k =>
        rw [walkFrom, hnext] at hd
        simp at hd
    have hglobal : get? (globalOnly tables) current = some (globalRows rows) := by
      rw [get?_globalOnly, hrows, Option.map_some]
    by_cases hseen : current ∈ seen
    · refine iff_of_true (by rw [traceFrom, traceFrom, hrows, hglobal]; simp [hseen]) ?_
      intro k _ d hd
      have hin : ∀ s ∈ seen, ∀ d, globalNext fleet dst tables s = some d → d ∈ seen :=
        fun s hs d hd => (hclosed s hs d hd).elim id fun h => h ▸ hseen
      exact hout d (mem_of_walkFrom hin k hseen hd)
    rw [course_traceFrom_succ fleet dst tables hrows hseen,
      course_traceFrom_succ fleet dst (globalOnly tables) hglobal hseen]
    have hnext : globalNext fleet dst tables current =
        (courseAt fleet current (leadersOf (globalRows rows) dst)).getRight?.map Prod.snd :=
      nextDevice_eq fleet dst (globalOnly tables) hglobal
    by_cases hrank : Outranked rows dst
    · -- The same routes decide here, so both paths go on alike.
      have hon : OutrankedOn dst tables current := by
        intro rows' hr
        obtain rfl : rows = rows' := Option.some.inj (hrows.symm.trans hr)
        exact hrank
      rw [(leadersOf_globalRows_iff rows dst).mpr hrank]
      rcases hc : courseAt fleet current (leadersOf (globalRows rows) dst) with c | ⟨s, nxt⟩
      · rw [hc] at hnext
        refine iff_of_true rfl fun k _ d hd => ?_
        cases k with
        | zero =>
          obtain rfl : current = d := Option.some.inj hd
          exact hon
        | succ k =>
          rw [walkFrom, hnext] at hd
          simp at hd
      · rw [hc] at hnext
        have hout' : ∀ s ∈ current :: seen, OutrankedOn dst tables s :=
          List.forall_mem_cons.mpr ⟨hon, hout⟩
        have hclosed' : ∀ s ∈ current :: seen, ∀ d,
            globalNext fleet dst tables s = some d → d ∈ current :: seen ∨ d = nxt := by
          intro s hs d hd
          rcases List.mem_cons.mp hs with rfl | hs
          · rw [hnext] at hd
            exact Or.inr (Option.some.inj hd).symm
          · left
            rcases hclosed s hs d hd with h | rfl
            · exact List.mem_cons_of_mem _ h
            · exact List.mem_cons_self ..
        rw [resume_inr_inj, course_traceFrom_iff n (current :: seen) nxt hout' hclosed']
        constructor
        · intro hk k hlt d hd
          cases k with
          | zero =>
            obtain rfl : current = d := Option.some.inj hd
            exact hon
          | succ k =>
            rw [walkFrom, hnext] at hd
            exact hk k (Nat.lt_of_succ_lt_succ hlt) d hd
        · intro hk k hlt d hd
          refine hk (k + 1) (Nat.succ_lt_succ hlt) d ?_
          rw [walkFrom, hnext]
          exact hd
    · -- Other routes decide here, and the first step shows it.
      refine iff_of_false (fun heq => hrank ?_) fun hall => hrank ?_
      · have hsteps := congrArg (fun c : Course => c.steps.head?) heq
        simp only [head?_resume] at hsteps
        exact (leadersOf_globalRows_iff rows dst).mp
          (firstStep_courseAt_injective fleet current hsteps)
      · exact hall 0 (Nat.succ_pos n) current rfl rows hrows

/-- The hops of a path, its best routes and its outcome are those of the tables without the rows of
the VRFs exactly when, on every device that the walk over the global tables reaches within the limit
of hops, the rows of the VRFs are outranked by global ones. -/
theorem course_trace_iff (start : String) :
    (trace fleet dst start tables).course = (trace fleet dst start (globalOnly tables)).course ↔
      ∀ k < maxHops, ∀ d, walkFrom (globalNext fleet dst tables) k start = some d →
        OutrankedOn dst tables d :=
  course_traceFrom_iff fleet dst tables maxHops [] start (fun _ h => nomatch h)
    fun _ h => nomatch h

/-- A device whose backup has a static route of a VRF, more specific than its default route. -/
def vrfInBackup : Dict (List CollectedRow) :=
  let live : Answer :=
    { rows := some
        [collectedRow "192.0.2.1"
            { network := "0.0.0.0/0", gateway := "203.0.113.1", type := "static",
              distance := .int 1, metric := .int 0 },
          collectedRow "192.0.2.1"
            { network := "10.10.0.0/16", interface := "Gi0/1", type := "connected",
              distance := .int 0, metric := .int 0 }] }
  let backup := routesFromBackup "192.0.2.1"
    (some [{ net := "10.50.0.0/16", nextHop := "10.10.0.2", vrf := "CLIENTE" }])
  [("192.0.2.1", (collectFor live backup).rows.getD [])]

/-- The path to an address of the VRF's network leaves through the VRF's gateway. -/
theorem vrf_route_decides :
    (trace ⟨[("192.0.2.1", [])], []⟩ "10.50.0.3" "192.0.2.1" vrfInBackup).exitHop =
        some "10.10.0.2" ∧
      (trace ⟨[("192.0.2.1", [])], []⟩ "10.50.0.3" "192.0.2.1"
        (globalOnly vrfInBackup)).exitHop = some "203.0.113.1" ∧
      ¬ ∀ (fleet : Fleet) (dst start : String) (tables : Dict (List CollectedRow)),
        (trace fleet dst start tables).course =
          (trace fleet dst start (globalOnly tables)).course := by
  have hall : (trace ⟨[("192.0.2.1", [])], []⟩ "10.50.0.3" "192.0.2.1" vrfInBackup).exitHop =
      some "10.10.0.2" := by decide
  have hglobal : (trace ⟨[("192.0.2.1", [])], []⟩ "10.50.0.3" "192.0.2.1"
      (globalOnly vrfInBackup)).exitHop = some "203.0.113.1" := by decide
  refine ⟨hall, hglobal, fun h => ?_⟩
  have hexit := congrArg Course.exitHop
    (h ⟨[("192.0.2.1", [])], []⟩ "10.50.0.3" "192.0.2.1" vrfInBackup)
  have hexits : (trace ⟨[("192.0.2.1", [])], []⟩ "10.50.0.3" "192.0.2.1" vrfInBackup).exitHop =
      (trace ⟨[("192.0.2.1", [])], []⟩ "10.50.0.3" "192.0.2.1"
        (globalOnly vrfInBackup)).exitHop := hexit
  rw [hall, hglobal] at hexits
  exact absurd hexits (by decide)

end SentinelNet.PathTrace
