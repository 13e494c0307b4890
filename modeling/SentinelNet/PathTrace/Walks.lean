import SentinelNet.PathTrace.VrfRows

/-!
# Paths as walks

A path follows the devices that forward to each other.  It ends at the first device that does not
forward, at the first one that comes again, or at the limit.  The test for a device that comes again
stands at the start of a round, so a loop that is closed by the last hop is not seen.

* `traceFrom_cases`: how a path ends.
* `faithfulWalk_iff`: when it is.
* `ring_not_seen`: a ring that is reported as a path without end.
-/

namespace SentinelNet.PathTrace

open PyDict RouteTable StableSort

/-! ## What a path should be -/

section Meaning

variable (fleet : Fleet) (dst : String) (tables : Dict (List CollectedRow))

/-- A row is no local route, and its network has the address. -/
def CoversAddr (target : Ipv4.Addr) (row : CollectedRow) (n : Ipv4.Network) : Prop :=
  row.type ≠ "local" ∧ net row.network = some n ∧ n.has target = true

def ranked (row : CollectedRow) (n : Ipv4.Network) : Candidate :=
  ⟨row, n.prefixlen, ad row, (num row.metric).getD 0⟩

/-- A route of the table covers the address, and none that does ranks strictly before it. -/
def IsBest (rows : List CollectedRow) (b : Candidate) : Prop :=
  ∃ target, addr dst = some target ∧
    (∃ row ∈ rows, ∃ n, CoversAddr target row n ∧ b = ranked row n) ∧
      ∀ row ∈ rows, ∀ n, CoversAddr target row n → b.Le (ranked row n)

/-- Two or more routes of a device tie for the best one. -/
def Ties (d : String) : Prop :=
  ∃ rows, get? tables d = some rows ∧ 1 < (leadersOf rows dst).length

/-- A device has an interface with the address. -/
def Owns (hopIp d : String) : Prop :=
  ∃ target, addr hopIp = some target ∧
    ∃ addrs, (d, addrs) ∈ fleet.addresses ∧ ∃ a ∈ addrs, addr a.ip = some target

/-- A hop is followed by another device, which owns the gateway of its best route. -/
def Follows (h h' : Hop) : Prop :=
  ∃ b, h.best = some b ∧ h'.deviceIp ≠ h.deviceIp ∧ Owns fleet b.row.gateway h'.deviceIp

/-- The device reached from the start in a number of hops. -/
abbrev visit (start : String) (n : ℕ) : Option String :=
  walkFrom (nextDevice fleet dst tables) n start

/-- The chain of next hops comes to a device again within the limit of hops. -/
def Returns (start : String) : Prop :=
  ∃ n ≤ maxHops, ∃ m < n, ∃ d, visit fleet dst tables start m = some d ∧
    visit fleet dst tables start n = some d

/-- The last hop within the limit is the first that leads to a device again. -/
def ReturnsAtLimit (start : String) : Prop :=
  (∃ m < maxHops, ∃ d, visit fleet dst tables start m = some d ∧
    visit fleet dst tables start maxHops = some d) ∧
  ∀ n < maxHops, ∀ m < n, visit fleet dst tables start m ≠ visit fleet dst tables start n

end Meaning

/-- A path is a walk along the best routes, and its outcome says how the walk ends. -/
structure FaithfulWalk (fleet : Fleet) (dst : String) (tables : Dict (List CollectedRow))
    (start : String) : Prop where
  distinct : (trace fleet dst start tables).outcome ≠ .anello →
    ((trace fleet dst start tables).hops.map Hop.deviceIp).Nodup
  looped : (trace fleet dst start tables).outcome = .anello →
    ∃ hops last, (trace fleet dst start tables).hops = hops ++ [last] ∧
      (hops.map Hop.deviceIp).Nodup ∧ last.deviceIp ∈ hops.map Hop.deviceIp
  best : ∀ h ∈ (trace fleet dst start tables).hops, ∀ b ∈ h.best,
    ∃ rows, get? tables h.deviceIp = some rows ∧ IsBest dst rows b
  follows : (trace fleet dst start tables).hops.IsChain (Follows fleet)
  fork : (trace fleet dst start tables).outcome = .biforcazione ↔
    ∃ n < maxHops, ∃ d, visit fleet dst tables start n = some d ∧ Ties dst tables d
  loop : (trace fleet dst start tables).outcome = .anello ↔ Returns fleet dst tables start

/-! ## The hop of a device -/

section Hops

variable {fleet : Fleet} {dst current : String} {rows : List CollectedRow}

theorem mem_covering_iff {c : Candidate} : c ∈ covering rows dst ↔
    ∃ target, addr dst = some target ∧
      ∃ row ∈ rows, ∃ n, CoversAddr target row n ∧ c = ranked row n := by
  unfold covering
  cases addr dst with
  | none =>
    refine iff_of_false (fun h => nomatch h) ?_
    rintro ⟨target, h, -⟩
    cases h
  | some target =>
    dsimp only
    rw [List.mem_filterMap]
    constructor
    · rintro ⟨row, hrow, hc⟩
      refine ⟨target, rfl, row, hrow, ?_⟩
      unfold candidate? at hc
      split at hc
      · cases hc
      · next hlocal =>
        split at hc
        · next n hn =>
          split at hc
          · next hhas => exact ⟨n, ⟨hlocal, hn, hhas⟩, (Option.some.inj hc).symm⟩
          · cases hc
        · cases hc
    · rintro ⟨target', ht, row, hrow, n, ⟨hlocal, hn, hhas⟩, rfl⟩
      obtain rfl := Option.some.inj ht
      refine ⟨row, hrow, ?_⟩
      unfold candidate?
      rw [if_neg hlocal, hn]
      dsimp only
      rw [if_pos hhas]
      rfl

theorem isBest_of_head? {b : Candidate} (h : (candidates rows dst).head? = some b) :
    IsBest dst rows b := by
  rw [candidates_eq] at h
  obtain ⟨hb, hmin⟩ := head_insertionSort Candidate.le_trans Candidate.le_total h
  obtain ⟨target, ht, row, hrow, n, hcover, rfl⟩ := mem_covering_iff.mp hb
  refine ⟨target, ht, ⟨row, hrow, n, hcover, rfl⟩, fun row' hrow' n' hcover' => ?_⟩
  exact hmin _ (mem_covering_iff.mpr ⟨target, ht, row', hrow', n', hcover', rfl⟩)

theorem owns_of_ownerOf {hopIp d : String} (h : ownerOf hopIp fleet.addresses current = some d) :
    d ≠ current ∧ Owns fleet hopIp d := by
  unfold ownerOf at h
  split at h
  · cases h
  · next target ht =>
    obtain ⟨p, hp, rfl⟩ := Option.map_eq_some_iff.mp h
    have hpred := List.find?_some hp
    rw [Bool.and_eq_true, bne_iff_ne, List.any_eq_true] at hpred
    obtain ⟨hne, a, ha, heq⟩ := hpred
    exact ⟨hne, target, ht, p.2, List.mem_of_find?_eq_some hp, a, ha, beq_iff_eq.mp heq⟩

theorem hopAt_inr {hop : Hop} {nxt : String} (h : hopAt fleet dst current rows = .inr (hop, nxt)) :
    hop.deviceIp = current ∧ (∃ b, hop.best = some b ∧ (candidates rows dst).head? = some b ∧
      nxt ≠ current ∧ Owns fleet b.row.gateway nxt) ∧
      ¬ 1 < (leadersOf rows dst).length := by
  unfold hopAt at h
  dsimp only at h
  split at h
  · cases h
  · next best cand hcand =>
    have hbest : (candidates rows dst).head? = some best := by
      rw [hcand]
      rfl
    have htied := filter_sameChoice hbest
    split at h
    · cases h
    · next hone =>
      rw [htied] at hone
      split at h
      · cases h
      · split at h
        · cases h
        · next owner howner =>
          obtain ⟨rfl, rfl⟩ := Prod.mk.inj (Sum.inr.inj h)
          exact ⟨rfl, ⟨best, rfl, hbest, owns_of_ownerOf howner⟩, hone⟩

/-- A device that does not forward ends the path with its own hop, at a fork exactly where routes
tie. -/
theorem hopAt_inl {path : Path} (h : hopAt fleet dst current rows = .inl path) :
    (∃ hop, path.hops = [hop] ∧ hop.deviceIp = current ∧
      ∀ b ∈ hop.best, (candidates rows dst).head? = some b) ∧
      path.outcome ≠ .anello ∧
      (path.outcome = .biforcazione ↔ 1 < (leadersOf rows dst).length) := by
  unfold hopAt at h
  dsimp only at h
  split at h
  · next hcand =>
    have hlead : leadersOf rows dst = [] := by
      have hhead := head?_leadersOf rows dst
      rwa [hcand, List.head?_nil, List.head?_eq_none_iff] at hhead
    obtain rfl := Sum.inl.inj h
    refine ⟨⟨_, rfl, rfl, fun b hb => nomatch hb⟩, (fun hno => nomatch hno), ?_⟩
    rw [hlead]
    exact iff_of_false (fun hno => nomatch hno) (by decide)
  · next best cand hcand =>
    have hbest : (candidates rows dst).head? = some best := by
      rw [hcand]
      rfl
    have htied := filter_sameChoice hbest
    have hhop : ∀ b ∈ some best, (candidates rows dst).head? = some b := fun b hb =>
      hb ▸ hbest
    split at h
    · next htwo =>
      rw [htied] at htwo
      obtain rfl := Sum.inl.inj h
      exact ⟨⟨_, rfl, rfl, hhop⟩, (fun hno => nomatch hno), iff_of_true rfl htwo⟩
    · next hone =>
      rw [htied] at hone
      split at h
      · obtain rfl := Sum.inl.inj h
        exact ⟨⟨_, rfl, rfl, hhop⟩, (fun hno => nomatch hno),
          iff_of_false (fun hno => nomatch hno) hone⟩
      · split at h
        · obtain rfl := Sum.inl.inj h
          exact ⟨⟨_, rfl, rfl, hhop⟩, (fun hno => nomatch hno),
          iff_of_false (fun hno => nomatch hno) hone⟩
        · cases h

end Hops

/-! ## How a path ends -/

section Ends

variable {fleet : Fleet} {dst : String} {tables : Dict (List CollectedRow)}

/-- The hops of devices that forward to each other, from one device to another. -/
inductive Moves (fleet : Fleet) (dst : String) (tables : Dict (List CollectedRow)) :
    String → List Hop → String → Prop
  | refl (d : String) : Moves fleet dst tables d [] d
  | step {d nxt last : String} {rows : List CollectedRow} {hop : Hop} {hops : List Hop}
      (hrows : get? tables d = some rows) (hhop : hopAt fleet dst d rows = .inr (hop, nxt))
      (rest : Moves fleet dst tables nxt hops last) : Moves fleet dst tables d (hop :: hops) last

/-- How a path ends after its moves, with the hops that it may still take. -/
inductive Ends (fleet : Fleet) (dst : String) (tables : Dict (List CollectedRow)) (n : ℕ)
    (seen : List String) (hops : List Hop) (last : String) : Path → Prop
  | limit (hn : hops.length = n) : Ends fleet dst tables n seen hops last
      { hops := hops, outcome := .limiteSalti }
  | unknown (hn : hops.length < n) (hrows : get? tables last = none) :
      Ends fleet dst tables n seen hops last
        { hops := hops, outcome := .nonInterrogato, deviceIp := some last }
  | loop (hn : hops.length < n) (hseen : last ∈ seen ++ hops.map Hop.deviceIp) (hop : Hop)
      (hdevice : hop.deviceIp = last) (hbest : hop.best = none) :
      Ends fleet dst tables n seen hops last { hops := hops ++ [hop], outcome := .anello }
  | stop (hn : hops.length < n) (hseen : last ∉ seen ++ hops.map Hop.deviceIp)
      {rows : List CollectedRow} (hrows : get? tables last = some rows) {path : Path}
      (hpath : hopAt fleet dst last rows = .inl path) :
      Ends fleet dst tables n seen hops last { path with hops := hops ++ path.hops }

/-- A path moves along devices that it has not seen, and then ends. -/
theorem traceFrom_cases (n : ℕ) (seen : List String) (current : String) :
    ∃ hops last, Moves fleet dst tables current hops last ∧
      (hops.map Hop.deviceIp).Nodup ∧ (∀ d ∈ hops.map Hop.deviceIp, d ∉ seen) ∧
        Ends fleet dst tables n seen hops last (traceFrom fleet dst tables n seen current) := by
  induction n generalizing seen current with
  | zero => exact ⟨[], current, .refl current, List.nodup_nil, (fun d hd => nomatch hd), .limit rfl⟩
  | succ n ih =>
    unfold traceFrom
    cases hrows : get? tables current with
    | none =>
      exact ⟨[], current, .refl current, List.nodup_nil, (fun d hd => nomatch hd),
        .unknown (Nat.succ_pos n) hrows⟩
    | some rows =>
      dsimp only
      split
      · next hseen =>
        exact ⟨[], current, .refl current, List.nodup_nil, (fun d hd => nomatch hd),
          .loop (Nat.succ_pos n) (List.mem_append_left _ hseen) _ rfl rfl⟩
      · next hseen =>
        cases hhop : hopAt fleet dst current rows with
        | inl path =>
          have hfresh : current ∉ seen ++ ([] : List Hop).map Hop.deviceIp := by
            rwa [List.map_nil, List.append_nil]
          exact ⟨[], current, .refl current, List.nodup_nil, (fun d hd => nomatch hd),
            .stop (Nat.succ_pos n) hfresh hrows hhop⟩
        | inr p =>
          obtain ⟨hop, nxt⟩ := p
          obtain ⟨hops, last, hmoves, hnodup, hfresh, hends⟩ := ih (current :: seen) nxt
          have hdevice := (hopAt_inr hhop).1
          refine ⟨hop :: hops, last, .step hrows hhop hmoves, ?_, ?_, ?_⟩
          · rw [List.map_cons, List.nodup_cons, hdevice]
            exact ⟨fun hmem => hfresh _ hmem List.mem_cons_self, hnodup⟩
          · intro d hd
            rw [List.map_cons, hdevice] at hd
            rcases List.mem_cons.mp hd with rfl | hd
            · exact hseen
            · exact fun hmem => hfresh d hd (List.mem_cons_of_mem _ hmem)
          · have hperm : ∀ d, d ∈ (current :: seen) ++ hops.map Hop.deviceIp ↔
                d ∈ seen ++ (hop :: hops).map Hop.deviceIp := by
              intro d
              rw [List.map_cons, hdevice, List.mem_append, List.mem_append, List.mem_cons,
                List.mem_cons, or_assoc]
              exact or_left_comm
            dsimp only
            generalize traceFrom fleet dst tables n (current :: seen) nxt = path at hends
            cases hends with
            | limit hn => exact .limit (congrArg (· + 1) hn)
            | unknown hn hnone => exact .unknown (Nat.succ_lt_succ hn) hnone
            | loop hn hmem hop' hd hb =>
              exact .loop (Nat.succ_lt_succ hn) ((hperm _).mp hmem) hop' hd hb
            | stop hn hmem hr hp =>
              exact .stop (Nat.succ_lt_succ hn) (fun h => hmem ((hperm _).mpr h)) hr hp

theorem visit_add (n k : ℕ) (d : String) : visit fleet dst tables d (n + k) =
    (visit fleet dst tables d n).bind fun e => visit fleet dst tables e k := by
  induction n generalizing d with
  | zero =>
    rw [Nat.zero_add]
    rfl
  | succ n ih =>
    rw [Nat.succ_add, visit, visit, walkFrom, walkFrom, Option.bind_assoc]
    exact Option.bind_congr fun e _ => ih e

theorem visit_one (d : String) : visit fleet dst tables d 1 = nextDevice fleet dst tables d := by
  change (nextDevice fleet dst tables d).bind some = _
  exact Option.bind_fun_some _

namespace Moves

variable {a b : String} {hops : List Hop}

section

variable (h : Moves fleet dst tables a hops b)

include h

theorem visit_length :
    visit fleet dst tables a hops.length = some b := by
  induction h with
  | refl d => rfl
  | @step d nxt last rows hop hops hrows hhop rest ih =>
    have hnext : nextDevice fleet dst tables d = some nxt := by
      unfold nextDevice
      rw [hrows, Option.bind_some, hhop]
      rfl
    rw [List.length_cons]
    change (nextDevice fleet dst tables d).bind (walkFrom (nextDevice fleet dst tables) _) = _
    rw [hnext]
    exact ih

theorem visit_getElem (i : ℕ) (hi : i < hops.length) :
    visit fleet dst tables a i = some (hops[i]).deviceIp := by
  induction h generalizing i with
  | refl d => exact absurd hi (Nat.not_lt_zero i)
  | @step d nxt last rows hop hops hrows hhop rest ih =>
    cases i with
    | zero => exact congrArg some (hopAt_inr hhop).1.symm
    | succ i =>
      have hnext : nextDevice fleet dst tables d = some nxt := by
        unfold nextDevice
        rw [hrows, Option.bind_some, hhop]
        rfl
      change (nextDevice fleet dst tables d).bind (walkFrom (nextDevice fleet dst tables) _) = _
      rw [hnext]
      exact ih i (Nat.lt_of_succ_lt_succ hi)

theorem hop : ∀ x ∈ hops,
    ∃ rows, get? tables x.deviceIp = some rows ∧ (candidates rows dst).head? = x.best ∧
      ¬ 1 < (leadersOf rows dst).length := by
  induction h with
  | refl d => exact fun x hx => nomatch hx
  | @step d nxt last rows hop hops hrows hhop rest ih =>
    intro x hx
    rcases List.mem_cons.mp hx with rfl | hx
    · obtain ⟨hdevice, ⟨best, hbest, hhead, -⟩, hone⟩ := hopAt_inr hhop
      exact ⟨rows, hdevice ▸ hrows, hhead.trans hbest.symm, hone⟩
    · exact ih x hx

theorem isChain (rest : List Hop) (hrest : rest.IsChain (Follows fleet))
    (hhead : ∀ x ∈ rest.head?, x.deviceIp = b) :
    (hops ++ rest).IsChain (Follows fleet) ∧
      ∀ x ∈ (hops ++ rest).head?, x.deviceIp = a := by
  induction h with
  | refl d => exact ⟨hrest, hhead⟩
  | @step d nxt last rows hop hops hrows hhop rest' ih =>
    obtain ⟨hchain, hfirst⟩ := ih hhead
    obtain ⟨hdevice, ⟨best, hbest, -, hne, howns⟩, -⟩ := hopAt_inr hhop
    refine ⟨?_, fun x hx => ?_⟩
    · rw [List.cons_append]
      cases hall : hops ++ rest with
      | nil => exact .singleton hop
      | cons y ys =>
        rw [hall] at hchain hfirst
        have hy : y.deviceIp = nxt := hfirst y rfl
        refine .cons_cons ⟨best, hbest, ?_, ?_⟩ hchain
        · rw [hy, hdevice]
          exact hne
        · rw [hy]
          exact howns
    · rw [← Option.some.inj hx]
      exact hdevice

end

variable {d : String}

section

variable (h : Moves fleet dst tables a hops b)

include h

theorem visit_of_mem (hd : d ∈ hops.map Hop.deviceIp) :
    ∃ i < hops.length, visit fleet dst tables a i = some d := by
  obtain ⟨x, hx, rfl⟩ := List.mem_map.mp hd
  obtain ⟨i, hi, rfl⟩ := List.getElem_of_mem hx
  exact ⟨i, hi, h.visit_getElem i hi⟩

theorem mem_of_visit {i : ℕ} (hi : i < hops.length) (hd : visit fleet dst tables a i = some d) :
    d ∈ hops.map Hop.deviceIp := by
  rw [h.visit_getElem i hi] at hd
  exact List.mem_map.mpr ⟨_, List.getElem_mem hi, Option.some.inj hd⟩

theorem eq_of_visit (hnodup : (hops.map Hop.deviceIp).Nodup) {i j : ℕ} (hi : i < hops.length)
    (hj : j < hops.length) (heq : visit fleet dst tables a i = visit fleet dst tables a j) :
    i = j := by
  rw [h.visit_getElem i hi, h.visit_getElem j hj] at heq
  have hi' : i < (hops.map Hop.deviceIp).length := by simpa using hi
  have hj' : j < (hops.map Hop.deviceIp).length := by simpa using hj
  have hmap : (hops.map Hop.deviceIp)[i] = (hops.map Hop.deviceIp)[j] := by
    rw [List.getElem_map, List.getElem_map]
    exact Option.some.inj heq
  exact (List.Nodup.getElem_inj_iff hnodup).mp hmap

theorem not_ties (hd : d ∈ hops.map Hop.deviceIp) : ¬ Ties dst tables d := by
  obtain ⟨x, hx, rfl⟩ := List.mem_map.mp hd
  obtain ⟨rows, hrows, -, hone⟩ := h.hop x hx
  rintro ⟨rows', hrows', htwo⟩
  obtain rfl := Option.some.inj (hrows.symm.trans hrows')
  exact hone htwo

theorem best : ∀ x ∈ hops, ∀ c ∈ x.best,
    ∃ rows, get? tables x.deviceIp = some rows ∧ IsBest dst rows c := by
  intro x hx c hc
  obtain ⟨rows, hrows, hhead, -⟩ := h.hop x hx
  exact ⟨rows, hrows, isBest_of_head? (hhead.trans hc)⟩

theorem visit_mem (hb : b ∈ hops.map Hop.deviceIp) (n : ℕ)
    (hd : visit fleet dst tables a n = some d) : d ∈ hops.map Hop.deviceIp := by
  have hclosed : ∀ s ∈ hops.map Hop.deviceIp, ∀ d, nextDevice fleet dst tables s = some d →
      d ∈ hops.map Hop.deviceIp := by
    intro s hs d hd
    obtain ⟨i, hi, hvisit⟩ := h.visit_of_mem hs
    have hsucc : visit fleet dst tables a (i + 1) = some d := by
      rw [visit_add, hvisit, Option.bind_some, visit_one, hd]
    rcases Nat.lt_or_ge (i + 1) hops.length with hlt | hge
    · exact h.mem_of_visit hlt hsucc
    · have hlast : i + 1 = hops.length := Nat.le_antisymm hi hge
      rw [hlast, h.visit_length] at hsucc
      exact Option.some.inj hsucc ▸ hb
  have hstart : a ∈ hops.map Hop.deviceIp := by
    cases h with
    | refl d => exact hb
    | step hrows hhop rest =>
      rw [List.map_cons, (hopAt_inr hhop).1]
      exact List.mem_cons_self ..
  exact mem_of_walkFrom hclosed n hstart hd

theorem visit_eq_none (hend : nextDevice fleet dst tables b = none) {n : ℕ} (hn : hops.length < n) :
    visit fleet dst tables a n = none := by
  obtain ⟨k, rfl⟩ := Nat.exists_eq_add_of_lt hn
  rw [Nat.add_assoc, Nat.add_comm k, visit_add, h.visit_length, Option.bind_some, visit_add,
    visit_one, hend, Option.bind_none]

theorem ties_iff (hend : nextDevice fleet dst tables b = none) (hlength : hops.length < maxHops) :
    (∃ n < maxHops, ∃ d, visit fleet dst tables a n = some d ∧ Ties dst tables d) ↔
      Ties dst tables b := by
  constructor
  · rintro ⟨n, -, d, hd, hties⟩
    rcases Nat.lt_trichotomy n hops.length with hlt | rfl | hgt
    · exact absurd hties (h.not_ties (h.mem_of_visit hlt hd))
    · rw [h.visit_length] at hd
      exact Option.some.inj hd ▸ hties
    · rw [h.visit_eq_none hend hgt] at hd
      cases hd
  · exact fun hties => ⟨hops.length, hlength, b, h.visit_length, hties⟩

theorem not_returns (hnodup : (hops.map Hop.deviceIp).Nodup) (hb : b ∉ hops.map Hop.deviceIp)
    (hend : nextDevice fleet dst tables b = none) : ¬ Returns fleet dst tables a := by
  rintro ⟨n, -, m, hmn, d, hm, hn⟩
  rcases Nat.lt_trichotomy n hops.length with hlt | rfl | hgt
  · exact hmn.ne (h.eq_of_visit hnodup (hmn.trans hlt) hlt (hm.trans hn.symm))
  · rw [h.visit_length] at hn
    exact hb (h.mem_of_visit hmn (hm.trans hn.symm))
  · rw [h.visit_eq_none hend hgt] at hn
    cases hn

end

end Moves

end Ends

/-! ## When a path is a faithful walk -/

section Verdict

variable {fleet : Fleet} {dst : String} {tables : Dict (List CollectedRow)} {start last : String}
  {hops : List Hop}

theorem ReturnsAtLimit.returns (h : ReturnsAtLimit fleet dst tables start) :
    Returns fleet dst tables start := by
  obtain ⟨⟨m, hm, d, hd, hlimit⟩, -⟩ := h
  exact ⟨maxHops, le_rfl, m, hm, d, hd, hlimit⟩

section

variable (h : Moves fleet dst tables start hops last) (hnodup : (hops.map Hop.deviceIp).Nodup)

include h hnodup

theorem Moves.faithful_limit (hn : hops.length = maxHops)
    (hpath : trace fleet dst start tables = { hops := hops, outcome := .limiteSalti }) :
    FaithfulWalk fleet dst tables start ↔ ¬ ReturnsAtLimit fleet dst tables start := by
  have hfirst : ∀ n < maxHops, ∀ m < n,
      visit fleet dst tables start m ≠ visit fleet dst tables start n := by
    intro n hlt m hmn heq
    rw [← hn] at hlt
    exact hmn.ne (h.eq_of_visit hnodup (hmn.trans hlt) hlt heq)
  constructor
  · intro hfaithful hreturn
    have hloop := hfaithful.loop.mpr hreturn.returns
    rw [hpath] at hloop
    cases hloop
  · intro hreturn
    refine ⟨?_, ?_, ?_, ?_, ?_, ?_⟩
    · rw [hpath]
      exact fun _ => hnodup
    · rw [hpath]
      exact fun hloop => nomatch hloop
    · rw [hpath]
      exact h.best
    · rw [hpath]
      have hchain := (h.isChain [] .nil fun x hx => nomatch hx).1
      rwa [List.append_nil] at hchain
    · rw [hpath]
      refine iff_of_false (fun hfork => nomatch hfork) ?_
      rintro ⟨n, hlt, d, hd, hties⟩
      rw [← hn] at hlt
      exact h.not_ties (h.mem_of_visit hlt hd) hties
    · rw [hpath]
      refine iff_of_false (fun hloop => nomatch hloop) ?_
      rintro ⟨n, hle, m, hmn, d, hm, hd⟩
      rcases Nat.lt_or_eq_of_le hle with hlt | rfl
      · exact hfirst n hlt m hmn (hm.trans hd.symm)
      · exact hreturn ⟨⟨m, hmn, d, hm, hd⟩, hfirst⟩

theorem Moves.faithful_loop (hn : hops.length < maxHops) (hseen : last ∈ hops.map Hop.deviceIp)
    {hop : Hop} (hdevice : hop.deviceIp = last) (hbest : hop.best = none)
    (hpath : trace fleet dst start tables = { hops := hops ++ [hop], outcome := .anello }) :
    FaithfulWalk fleet dst tables start ∧ ¬ ReturnsAtLimit fleet dst tables start := by
  obtain ⟨m, hm, hvisit⟩ := h.visit_of_mem hseen
  have hagain : visit fleet dst tables start m = visit fleet dst tables start hops.length :=
    hvisit.trans h.visit_length.symm
  refine ⟨⟨?_, ?_, ?_, ?_, ?_, ?_⟩, fun hreturn => hreturn.2 _ hn m hm hagain⟩
  · rw [hpath]
    exact fun hloop => absurd rfl hloop
  · rw [hpath]
    exact fun _ => ⟨hops, hop, rfl, hnodup, hdevice ▸ hseen⟩
  · rw [hpath]
    intro x hx b hb
    rcases List.mem_append.mp hx with hx | hx
    · exact h.best x hx b hb
    · rw [List.mem_singleton.mp hx, hbest] at hb
      cases hb
  · rw [hpath]
    refine (h.isChain [hop] (.singleton hop) fun x hx => ?_).1
    rw [← Option.some.inj hx]
    exact hdevice
  · rw [hpath]
    refine iff_of_false (fun hfork => nomatch hfork) ?_
    rintro ⟨n, -, d, hd, hties⟩
    exact h.not_ties (h.visit_mem hseen n hd) hties
  · rw [hpath]
    exact iff_of_true rfl ⟨hops.length, hn.le, m, hm, last, hvisit, h.visit_length⟩

theorem Moves.faithful_stop (hn : hops.length < maxHops) (hseen : last ∉ hops.map Hop.deviceIp)
    (hend : nextDevice fleet dst tables last = none) {own : Option Hop}
    (hown : ∀ x ∈ own, x.deviceIp = last ∧ ∀ b ∈ x.best, ∃ rows, get? tables last = some rows ∧ IsBest dst rows b)
    (hhops : (trace fleet dst start tables).hops = hops ++ own.toList)
    (hloop : (trace fleet dst start tables).outcome ≠ .anello)
    (hfork : (trace fleet dst start tables).outcome = .biforcazione ↔ Ties dst tables last) :
    FaithfulWalk fleet dst tables start ∧ ¬ ReturnsAtLimit fleet dst tables start := by
  have hreturns := h.not_returns hnodup hseen hend
  refine ⟨⟨fun _ => ?_, fun hno => absurd hno hloop, ?_, ?_, ?_, ?_⟩, fun hreturn =>
    hreturns hreturn.returns⟩
  · rw [hhops]
    cases own with
    | none => rwa [Option.toList_none, List.append_nil]
    | some x =>
      rw [Option.toList_some, List.map_append, List.map_singleton, List.nodup_append_comm,
        List.singleton_append, List.nodup_cons, (hown x rfl).1]
      exact ⟨hseen, hnodup⟩
  · rw [hhops]
    intro x hx b hb
    rcases List.mem_append.mp hx with hx | hx
    · exact h.best x hx b hb
    · obtain ⟨hdevice, hbest⟩ := hown x (Option.mem_toList.mp hx)
      rw [hdevice]
      exact hbest b hb
  · rw [hhops]
    refine (h.isChain own.toList ?_ fun x hx => ?_).1
    · cases own with
      | none => exact .nil
      | some x => exact .singleton x
    · cases own with
      | none => cases hx
      | some y => exact (hown x hx).1
  · exact hfork.trans (h.ties_iff hend hn).symm
  · exact iff_of_false hloop hreturns

end

variable (fleet dst tables start)

/-- A path is a faithful walk exactly where the last hop within the limit is not the first to lead
to a device again. -/
theorem faithfulWalk_iff :
    FaithfulWalk fleet dst tables start ↔ ¬ ReturnsAtLimit fleet dst tables start := by
  obtain ⟨hops, last, hmoves, hnodup, -, hends⟩ :=
    @traceFrom_cases fleet dst tables maxHops [] start
  change Ends fleet dst tables maxHops [] hops last (trace fleet dst start tables) at hends
  generalize hpath : trace fleet dst start tables = path at hends
  cases hends with
  | limit hn => exact hmoves.faithful_limit hnodup hn hpath
  | unknown hn hrows =>
    have hseen : last ∉ hops.map Hop.deviceIp := by
      intro hmem
      obtain ⟨x, hx, rfl⟩ := List.mem_map.mp hmem
      obtain ⟨rows, hsome, -⟩ := hmoves.hop x hx
      cases hrows.symm.trans hsome
    have hend : nextDevice fleet dst tables last = none := by
      rw [nextDevice, hrows, Option.bind_none]
    have hfork : ¬ Ties dst tables last := by
      rintro ⟨rows, hsome, -⟩
      cases hrows.symm.trans hsome
    have hboth := hmoves.faithful_stop hnodup hn hseen hend
      (fun x (hx : x ∈ (none : Option Hop)) => by cases hx)
      (by rw [hpath, Option.toList_none, List.append_nil])
      (by rw [hpath]; exact fun hno => by cases hno)
      (by rw [hpath]; exact iff_of_false (fun hno => by cases hno) hfork)
    exact iff_of_true hboth.1 hboth.2
  | loop hn hseen hop hdevice hbest =>
    have hboth := hmoves.faithful_loop hnodup hn hseen hdevice hbest hpath
    exact iff_of_true hboth.1 hboth.2
  | @stop hn hseen rows hrows own hown =>
    obtain ⟨⟨hop, hhop, hdevice, hbest⟩, hloop, hfork⟩ := hopAt_inl hown
    have hend : nextDevice fleet dst tables last = none := by
      rw [nextDevice, hrows, Option.bind_some, hown]
      rfl
    have hties : Ties dst tables last ↔ 1 < (leadersOf rows dst).length := by
      refine ⟨?_, fun htwo => ⟨rows, hrows, htwo⟩⟩
      rintro ⟨rows', hrows', htwo⟩
      obtain rfl := Option.some.inj (hrows.symm.trans hrows')
      exact htwo
    have hboth := hmoves.faithful_stop hnodup hn hseen hend
      (fun x (hx : x ∈ some hop) => by
        obtain rfl := Option.some.inj hx
        exact ⟨hdevice, fun b hb => ⟨rows, hrows, isBest_of_head? (hbest b hb)⟩⟩)
      (by rw [hpath, hhop]; rfl) (by rw [hpath]; exact hloop)
      (by rw [hpath]; exact hfork.trans hties.symm)
    exact iff_of_true hboth.1 hboth.2

end Verdict

/-! ## A ring as long as the limit -/

/-- The address of a router of the ring. -/
def ringIp (i : ℕ) : String := "10.99.0." ++ toString (i % maxHops + 1)

/-- The table of a router of the ring, with a route by the next one. -/
def ringTable (i : ℕ) : List CollectedRow :=
  [⟨ringIp i, "10.30.0.0/16", "global", ringIp (i + 1), "", "static", .none, .none, false⟩]

/-- The addresses of the routers of the ring. -/
def ring : Fleet := ⟨(List.range maxHops).map fun i => (ringIp i, [⟨"Gi0/1", ringIp i, ""⟩]), []⟩

def ringTables : Dict (List CollectedRow) :=
  (List.range maxHops).map fun i => (ringIp i, ringTable i)

/-- Sixteen routers that point at each other in a ring are reported as a path without end. -/
theorem ring_not_seen :
    (trace ring "10.30.4.1" (ringIp 0) ringTables).outcome = .limiteSalti ∧
      Returns ring "10.30.4.1" ringTables (ringIp 0) ∧
        ¬ ∀ (fleet : Fleet) (dst : String) (tables : Dict (List CollectedRow)) (start : String),
          FaithfulWalk fleet dst tables start := by
  have houtcome : (trace ring "10.30.4.1" (ringIp 0) ringTables).outcome = .limiteSalti := by
    decide
  have hagain : visit ring "10.30.4.1" ringTables (ringIp 0) maxHops = some (ringIp 0) := by
    decide
  have hreturns : Returns ring "10.30.4.1" ringTables (ringIp 0) :=
    ⟨maxHops, le_rfl, 0, by decide, ringIp 0, rfl, hagain⟩
  refine ⟨houtcome, hreturns, fun hall => ?_⟩
  have hloop := (hall ring "10.30.4.1" ringTables (ringIp 0)).loop.mpr hreturns
  rw [houtcome] at hloop
  exact nomatch hloop

end SentinelNet.PathTrace
