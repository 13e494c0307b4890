import SentinelNet.Lib.Runs
import SentinelNet.Segments.Store

/-!
# One node, one zone

Saves and deletions of segments run at the same time.  Between what a save reads of the other
segments and what it writes, other saves and deletions may come, and then it writes back what is no
longer true.

* `Zones`, `Zones.step`: the table, the calls that have begun, and what was saved and deleted.
* `zones_of_upToDate`: both hold in every state of a run whose saves write up to date.
-/

namespace SentinelNet.Segments

open PyText StepRuns

/-! ## The machine -/

/-- A call that has begun, before its next step. -/
inductive Call where
  /-- `SELECT org FROM segments WHERE id = …`. -/
  | lookup (seg : Segment)
  /-- `SELECT id, members FROM segments WHERE org = … AND id != …`. -/
  | select (seg : Segment)
  /-- The transaction of a save. -/
  | write (seg : Segment) (read : List (String × List String))
  /-- The transaction of a deletion. -/
  | delete (org segId : String)
  | ended
  deriving DecidableEq

/-- What was done. -/
inductive Event where
  | saved (org segId : String) (members : List String)
  | deleted (segId : String)
  deriving DecidableEq

/-- The table and the calls.  The ids in use with their organizations and what was done are kept to
speak about them. -/
structure Zones where
  table : List Segment
  calls : List Call
  known : List (String × String)
  log : List Event

/-- Before the first save. -/
def Zones.empty : Zones := ⟨[], [], [], []⟩

/-- A call begins, takes its next step, or fails. -/
inductive Act where
  /-- `save_segment`, with the organizations that there are and the id that `uuid4` draws. -/
  | save (groups : List String) (req : SaveRequest) (fresh : String)
  /-- `delete_segment`. -/
  | delete (org segId : String)
  | turn (i : ℕ)
  /-- The database refuses a call; nothing of its transaction is kept. -/
  | fail (i : ℕ)

section Steps

variable (network : String → Option String)

def Zones.begin (s : Zones) (c : Call) : Zones := { s with calls := s.calls ++ [c] }

/-- The next step of a call. -/
def Zones.advance (s : Zones) (i : ℕ) : Call → Zones
  | .lookup seg =>
    if s.table.any (Segment.named seg.org seg.id) then
      { s with calls := s.calls.set i (.select seg) }
    else { s with calls := s.calls.set i .ended }
  | .select seg => { s with calls := s.calls.set i (.write seg (others s.table seg.org seg.id)) }
  | .write seg read =>
    { s with
      table := writeSegment seg read s.table
      calls := s.calls.set i .ended
      log := s.log ++ [.saved seg.org seg.id seg.members] }
  | .delete org segId =>
    if s.table.any (Segment.named org segId) then
      { s with
        table := deleteSegment org segId s.table
        calls := s.calls.set i .ended
        log := s.log ++ [.deleted segId] }
    else { s with calls := s.calls.set i .ended }
  | .ended => s

def Zones.step (s : Zones) : Act → Zones
  | .save groups req fresh =>
    if req.segId.getD "" = "" then
      match req.segment network groups fresh with
      | .ok seg => { s.begin (.select seg) with known := s.known ++ [(seg.id, seg.org)] }
      | .error _ => s
    else
      match req.segment network groups (req.segId.getD "") with
      | .ok seg => s.begin (.lookup seg)
      | .error _ => s
  | .delete org segId => s.begin (.delete org segId)
  | .turn i =>
    match s.calls[i]? with
    | some c => s.advance i c
    | none => s
  | .fail i => { s with calls := s.calls.set i .ended }

/-! ## What is to hold -/

/-- No node is in two segments of one organization. -/
def OneZone (table : List Segment) : Prop :=
  ∀ r ∈ table, ∀ r' ∈ table, r.org = r'.org → ∀ n, n ∈ r.members → n ∈ r'.members → r.id = r'.id

/-- Something takes a node from a segment: the segment is deleted or saved anew, or another one of
its organization is saved with the node. -/
def Event.takes (org segId node : String) : Event → Prop
  | .saved org' segId' members => segId' = segId ∨ (org' = org ∧ node ∈ members)
  | .deleted segId' => segId' = segId

def Holds (table : List Segment) (segId node : String) : Prop :=
  ∃ r ∈ table, r.id = segId ∧ node ∈ r.members

/-- What was saved is there until something takes it. -/
def NothingLost (table : List Segment) (log : List Event) : Prop :=
  ∀ before org segId members after, log = before ++ .saved org segId members :: after →
    ∀ n ∈ members, Holds table segId n ∨ ∃ e ∈ after, e.takes org segId n

/-- The id that is drawn is new. -/
def FreshId (s : Zones) (req : SaveRequest) (fresh : String) : Prop :=
  req.segId.getD "" = "" → fresh ∉ s.known.map Prod.fst

/-- Every save that writes is up to date, and ids that are drawn are new. -/
def Careful (s : Zones) : Act → Prop
  | .save _ req fresh => FreshId s req fresh
  | .turn i => ∀ seg read, s.calls[i]? = some (.write seg read) → UpToDate seg read s.table
  | _ => True

end Steps

/-! ## A save that is up to date -/

variable {table table' : List Segment} {known : List (String × String)} {seg : Segment}
  {read : List (String × List String)} {log : List Event}

/-- An id belongs to one organization. -/
def Owned (known : List (String × String)) : Prop :=
  ∀ segId org org', (segId, org) ∈ known → (segId, org') ∈ known → org = org'

/-- The rows are under the ids in use. -/
def Listed (known : List (String × String)) (table : List Segment) : Prop :=
  ∀ r ∈ table, (r.id, r.org) ∈ known

/-- What a save read was the other segments of its organization at one time. -/
structure Consistent (known : List (String × String)) (seg : Segment)
    (read : List (String × List String)) : Prop where
  own : (seg.id, seg.org) ∈ known
  org : ∀ p ∈ read, (p.1, seg.org) ∈ known
  disjoint : ∀ p ∈ read, ∀ q ∈ read, ∀ n, n ∈ p.2 → n ∈ q.2 → p.1 = q.1

theorem Consistent.of_others (hzones : OneZone table) (hlisted : Listed known table)
    (hown : (seg.id, seg.org) ∈ known) :
    Consistent known seg (others table seg.org seg.id) where
  own := hown
  org p hp := by
    obtain ⟨r, hr, horg, _, rfl⟩ := mem_others hp
    exact horg ▸ hlisted r hr
  disjoint p hp q hq n hnp hnq := by
    obtain ⟨r, hr, horg, _, rfl⟩ := mem_others hp
    obtain ⟨r', hr', horg', _, rfl⟩ := mem_others hq
    exact hzones r hr r' hr' (horg.trans horg'.symm) n hnp hnq

section Write

theorem mem_rewritten (hup : UpToDate seg read table) {old r : Segment} (hold : old ∈ table)
    (hid : old.id ≠ seg.id) (horg : old.org = seg.org) (hspec : Rewritten seg.members read old r)
    {n : String} (hn : n ∈ r.members) :
    n ∉ seg.members ∧ ((old.id ∉ read.map Prod.fst ∧ n ∈ old.members) ∨
      ∃ m, (old.id, m) ∈ read ∧ n ∈ m) := by
  rcases hspec.members with ⟨hunread, hsame⟩ | ⟨m, hm, hmembers⟩
  · rw [hsame] at hn
    exact ⟨(hup.unknown old hold horg hid hunread n hn).1, .inl ⟨hunread, hn⟩⟩
  · rw [hmembers, List.mem_filter] at hn
    exact ⟨of_decide_eq_true hn.2, .inr ⟨m, hm, hn.1⟩⟩

variable (howned : Owned known) (hlisted : Listed known table) (hread : Consistent known seg read)

include howned hlisted hread

theorem not_read {r : Segment} (hr : r ∈ table) (horg : r.org ≠ seg.org) :
    r.id ∉ read.map Prod.fst := by
  intro hmem
  obtain ⟨p, hp, hid⟩ := List.mem_map.mp hmem
  exact horg (howned r.id r.org seg.org (hlisted r hr) (hid ▸ hread.org p hp))

theorem saved_or_rewritten {r : Segment} (hr : r ∈ writeSegment seg read table) :
    (r.id = seg.id ∧ r.org = seg.org ∧ r.members = seg.members) ∨
      ∃ old ∈ table, old.id ≠ seg.id ∧ Rewritten seg.members read old r := by
  rcases mem_writeSegment hr with ⟨hid, hmembers, horg⟩ | ⟨hid, old, hold, hspec⟩
  · refine .inl ⟨hid, ?_, hmembers⟩
    rcases horg with horg | ⟨old, hold, hoid, horg⟩
    · exact horg
    · rw [horg]
      exact howned seg.id old.org seg.org (hoid ▸ hlisted old hold) hread.own
  · exact .inr ⟨old, hold, fun h => hid (hspec.id.trans h), hspec⟩

theorem Listed.write : Listed known (writeSegment seg read table) := by
  intro r hr
  rcases saved_or_rewritten howned hlisted hread hr with ⟨hid, horg, _⟩ | ⟨old, hold, _, hspec⟩
  · rw [hid, horg]
    exact hread.own
  · rw [hspec.id, hspec.org]
    exact hlisted old hold

theorem OneZone.write (hzones : OneZone table) (hup : UpToDate seg read table) :
    OneZone (writeSegment seg read table) := by
  intro r hr r' hr' horg n hn hn'
  rcases saved_or_rewritten howned hlisted hread hr with ⟨hid, hrorg, hmembers⟩ |
      ⟨old, hold, hoid, hspec⟩ <;>
    rcases saved_or_rewritten howned hlisted hread hr' with ⟨hid', hrorg', hmembers'⟩ |
      ⟨old', hold', hoid', hspec'⟩
  · exact hid.trans hid'.symm
  · have horg' : old'.org = seg.org := by rw [← hspec'.org, ← horg, hrorg]
    have htaken := (mem_rewritten hup hold' hoid' horg' hspec' hn').1
    exact absurd (hmembers ▸ hn) htaken
  · have horg' : old.org = seg.org := by rw [← hspec.org, horg, hrorg']
    have htaken := (mem_rewritten hup hold hoid horg' hspec hn).1
    exact absurd (hmembers' ▸ hn') htaken
  · have hsame : old.org = old'.org := by rw [← hspec.org, horg, hspec'.org]
    rw [hspec.id, hspec'.id]
    by_cases hown : old.org = seg.org
    · have hown' : old'.org = seg.org := hsame ▸ hown
      rcases (mem_rewritten hup hold hoid hown hspec hn).2 with
          ⟨hunread, hin⟩ | ⟨m, hm, hin⟩ <;>
        rcases (mem_rewritten hup hold' hoid' hown' hspec' hn').2 with
          ⟨hunread', hin'⟩ | ⟨m', hm', hin'⟩
      · exact hzones old hold old' hold' hsame n hin hin'
      · exact absurd hin' ((hup.unknown old hold hown hoid hunread n hin).2 _ hm'
          (List.mem_map_of_mem hold'))
      · exact absurd hin ((hup.unknown old' hold' hown' hoid' hunread' n hin').2 _ hm
          (List.mem_map_of_mem hold))
      · exact hread.disjoint _ hm _ hm' n hin hin'
    · have hmem : ∀ {o q : Segment}, o ∈ table → o.org ≠ seg.org → Rewritten seg.members read o q →
          q.members = o.members := by
        intro o q ho horg hspec
        rcases hspec.members with ⟨_, hsame⟩ | ⟨m, hm, _⟩
        · exact hsame
        · exact absurd (List.mem_map.mpr ⟨_, hm, rfl⟩) (not_read howned hlisted hread ho horg)
      rw [hmem hold hown hspec] at hn
      rw [hmem hold' (hsame ▸ hown) hspec'] at hn'
      exact hzones old hold old' hold' hsame n hn hn'

theorem Holds.write (hup : UpToDate seg read table) {org segId n : String}
    (hid : (segId, org) ∈ known) (h : Holds table segId n)
    (htakes : ¬(Event.saved seg.org seg.id seg.members).takes org segId n) :
    Holds (writeSegment seg read table) segId n := by
  obtain ⟨r, hr, rfl, hn⟩ := h
  obtain ⟨hother, hclaims⟩ := not_or.mp htakes
  have horg : r.org = org := howned r.id r.org org (hlisted r hr) hid
  obtain ⟨r', hr', hspec⟩ : ∃ r' ∈ writeSegment seg read table, Rewritten seg.members read r r' :=
    exists_rewritten hr (Ne.symm hother)
  refine ⟨r', hr', hspec.id, ?_⟩
  rcases hspec.members with ⟨_, hsame⟩ | ⟨m, hm, hmembers⟩
  · rwa [hsame]
  · have hown : r.org = seg.org := by
      by_contra hne
      exact not_read howned hlisted hread hr hne (List.mem_map.mpr ⟨_, hm, rfl⟩)
    have hfree : n ∉ seg.members := fun hin => hclaims ⟨hown.symm.trans horg, hin⟩
    rw [hmembers]
    exact List.mem_filter.mpr
      ⟨hup.known r hr hown (Ne.symm hother) m hm n hn hfree, decide_eq_true hfree⟩

end Write

/-! ## The log -/

theorem NothingLost.append {e : Event} (h : NothingLost table log)
    (hself : ∀ org segId members, e = .saved org segId members → ∀ n ∈ members,
      Holds table' segId n)
    (hkeep : ∀ org segId members, Event.saved org segId members ∈ log → ∀ n,
      Holds table segId n → ¬e.takes org segId n → Holds table' segId n) :
    NothingLost table' (log ++ [e]) := by
  intro before org segId members after hlog n hn
  rcases List.eq_nil_or_concat after with rfl | ⟨rest, e', rfl⟩
  · have hlast := (List.append_inj' hlog rfl).2
    exact .inl (hself org segId members (List.singleton_inj.mp hlast) n hn)
  · rw [List.concat_eq_append, ← List.cons_append, ← List.append_assoc] at hlog
    obtain ⟨hinit, hlast⟩ := List.append_inj' hlog rfl
    obtain rfl := List.singleton_inj.mp hlast
    rw [List.concat_eq_append]
    rcases h before org segId members rest hinit n hn with hthere | ⟨e', he', htakes⟩
    · by_cases htakes : e.takes org segId n
      · exact .inr ⟨e, List.mem_concat_self, htakes⟩
      · have hmem : Event.saved org segId members ∈ log :=
          hinit ▸ List.mem_append_right _ List.mem_cons_self
        exact .inl (hkeep org segId members hmem n hthere htakes)
    · exact .inr ⟨e', List.mem_append_left _ he', htakes⟩

theorem Holds.delete {org org' segId segId' n : String} (h : Holds table segId n)
    (htakes : ¬(Event.deleted segId').takes org segId n) :
    Holds (deleteSegment org' segId' table) segId n := by
  obtain ⟨r, hr, rfl, hn⟩ := h
  refine ⟨r, List.mem_filter.mpr ⟨hr, ?_⟩, rfl, hn⟩
  rw [Segment.named, decide_eq_false (Ne.symm htakes)]
  rfl

/-! ## The invariant -/

/-- What a call that has begun knows. -/
def Call.Informed (known : List (String × String)) : Call → Prop
  | .select seg => (seg.id, seg.org) ∈ known
  | .write seg read => Consistent known seg read
  | _ => True

/-- The invariant of the machine. -/
structure Zones.Inv (s : Zones) : Prop where
  zones : OneZone s.table
  kept : NothingLost s.table s.log
  owned : Owned s.known
  listed : Listed s.known s.table
  logged : ∀ org segId members, Event.saved org segId members ∈ s.log → (segId, org) ∈ s.known
  informed : ∀ c ∈ s.calls, c.Informed s.known

theorem Zones.Inv.empty : Zones.empty.Inv where
  zones _ hr := nomatch hr
  kept before org segId members after h :=
    absurd (congrArg List.length h) (by simp [Zones.empty])
  owned _ _ _ h := nomatch h
  listed _ hr := nomatch hr
  logged _ _ _ h := nomatch h
  informed _ hc := nomatch hc

variable {s : Zones} {i : ℕ}

variable {c : Call}

theorem Zones.Inv.set (hs : s.Inv) (hc : c.Informed s.known) :
    Zones.Inv { s with calls := s.calls.set i c } where
  zones := hs.zones
  kept := hs.kept
  owned := hs.owned
  listed := hs.listed
  logged := hs.logged
  informed c' hc' := by
    rcases List.mem_or_eq_of_mem_set hc' with hc' | rfl
    · exact hs.informed c' hc'
    · exact hc

theorem Zones.Inv.begin (hs : s.Inv) (hc : c.Informed s.known) : (s.begin c).Inv where
  zones := hs.zones
  kept := hs.kept
  owned := hs.owned
  listed := hs.listed
  logged := hs.logged
  informed c' hc' := by
    rcases List.mem_append.mp hc' with hc' | hc'
    · exact hs.informed c' hc'
    · exact List.mem_singleton.mp hc' ▸ hc

theorem Call.Informed.mono {known known' : List (String × String)}
    (h : c.Informed known) (hsub : known ⊆ known') : c.Informed known' := by
  cases c with
  | select seg => exact hsub h
  | write seg read => exact ⟨hsub h.own, fun p hp => hsub (h.org p hp), h.disjoint⟩
  | lookup seg => trivial
  | delete org segId => trivial
  | ended => trivial

theorem Zones.Inv.draw (hs : s.Inv) {segId org : String} (hnew : segId ∉ s.known.map Prod.fst) :
    Zones.Inv { s with known := s.known ++ [(segId, org)] } where
  zones := hs.zones
  kept := hs.kept
  owned id o o' h h' := by
    have hin : ∀ {a}, (segId, a) ∉ s.known := fun h => hnew (List.mem_map.mpr ⟨_, h, rfl⟩)
    rcases List.mem_append.mp h with hold | hlast <;>
      rcases List.mem_append.mp h' with hold' | hlast'
    · exact hs.owned id o o' hold hold'
    · obtain ⟨rfl, rfl⟩ := Prod.mk.inj (List.mem_singleton.mp hlast')
      exact absurd hold hin
    · obtain ⟨rfl, rfl⟩ := Prod.mk.inj (List.mem_singleton.mp hlast)
      exact absurd hold' hin
    · rw [(Prod.mk.inj (List.mem_singleton.mp hlast)).2,
        (Prod.mk.inj (List.mem_singleton.mp hlast')).2]
  listed r hr := List.mem_append_left _ (hs.listed r hr)
  logged org segId members h := List.mem_append_left _ (hs.logged org segId members h)
  informed c hc := (hs.informed c hc).mono (List.subset_append_left ..)

theorem Zones.Inv.write (hs : s.Inv) (hc : Call.write seg read ∈ s.calls)
    (hup : UpToDate seg read s.table) : (s.advance i (.write seg read)).Inv := by
  have hread : Consistent s.known seg read := hs.informed _ hc
  refine ⟨hs.zones.write hs.owned hs.listed hread hup, ?_, hs.owned,
    Listed.write hs.owned hs.listed hread, ?_, (hs.set (c := .ended) trivial).informed⟩
  · refine hs.kept.append (fun org segId members h n hn => ?_) fun org segId members h n hn ht =>
      hn.write hs.owned hs.listed hread hup (hs.logged org segId members h) ht
    obtain ⟨rfl, rfl, rfl⟩ := Event.saved.inj h
    obtain ⟨r, hr, hid, hmembers⟩ := exists_saved seg read s.table
    exact ⟨r, hr, hid, hmembers ▸ hn⟩
  · intro org segId members h
    rcases List.mem_append.mp h with h | h
    · exact hs.logged org segId members h
    · obtain ⟨rfl, rfl, rfl⟩ := Event.saved.inj (List.mem_singleton.mp h)
      exact hread.own

theorem Zones.Inv.delete (hs : s.Inv) (org segId : String) :
    (s.advance i (.delete org segId)).Inv := by
  rw [Zones.advance]
  split
  · refine ⟨fun r hr r' hr' => ?_, ?_, hs.owned, ?_, ?_, (hs.set (c := .ended) trivial).informed⟩
    · exact hs.zones r (List.mem_of_mem_filter hr) r' (List.mem_of_mem_filter hr')
    · exact hs.kept.append (fun org segId members h => nomatch h)
        fun org segId members _ n hn ht => hn.delete ht
    · exact fun r hr => hs.listed r (List.mem_of_mem_filter hr)
    · intro org segId members h
      rcases List.mem_append.mp h with h | h
      · exact hs.logged org segId members h
      · exact nomatch List.mem_singleton.mp h
  · exact hs.set trivial

theorem Zones.Inv.advance (hs : s.Inv) (hc : c ∈ s.calls)
    (hup : ∀ seg read, c = .write seg read → UpToDate seg read s.table) :
    (s.advance i c).Inv := by
  cases c with
  | lookup seg =>
    rw [Zones.advance]
    split
    · next hany =>
      obtain ⟨r, hr, hnamed⟩ := List.any_eq_true.mp hany
      obtain ⟨hid, horg⟩ := Bool.and_eq_true_iff.mp hnamed
      refine hs.set ?_
      have hrow := hs.listed r hr
      rwa [of_decide_eq_true hid, of_decide_eq_true horg] at hrow
    · exact hs.set trivial
  | select seg => exact hs.set (Consistent.of_others hs.zones hs.listed (hs.informed _ hc))
  | write seg read => exact hs.write hc (hup seg read rfl)
  | delete org segId => exact hs.delete org segId
  | ended => exact hs

theorem Zones.Inv.step {network : String → Option String} (hs : s.Inv) {a : Act}
    (ha : Careful s a) : (s.step network a).Inv := by
  cases a with
  | save groups req fresh =>
    rw [Zones.step]
    split
    · next hnone =>
      split
      · next seg hseg =>
        have hnew : seg.id ∉ s.known.map Prod.fst := segment_id hseg ▸ ha hnone
        exact (hs.draw hnew).begin (List.mem_concat_self)
      · exact hs
    · split
      · exact hs.begin trivial
      · exact hs
  | delete org segId => exact hs.begin trivial
  | turn i =>
    rw [Zones.step]
    split
    · next c hc =>
      exact hs.advance (List.mem_of_getElem? hc) fun seg read h => ha seg read (h ▸ hc)
    · exact hs
  | fail i => exact hs.set trivial

/-! ## Main results -/

/-- **In every run whose saves write up to date** no node is in two segments of one organization,
and what was saved is there until it is deleted, saved anew, or taken by a save that claims it. -/
theorem zones_of_upToDate (network : String → Option String) {acts : List Act}
    (hrun : Run (Zones.step network) Careful Zones.empty acts s) :
    OneZone s.table ∧ NothingLost s.table s.log :=
  have hinv := hrun.invariant (fun _ _ hs ha => hs.step ha) Zones.Inv.empty
  ⟨hinv.zones, hinv.kept⟩

/-! ## Saves one after the other -/

theorem run_alone (network : String → Option String) (seg : Segment) (hids : (s.table.map Segment.id).Nodup)
    (hcall : s.calls[i]? = some (.select seg)) :
    Run (Zones.step network) Careful s [.turn i, .turn i]
      ((s.step network (.turn i)).step network (.turn i)) := by
  have hstep : s.step network (.turn i) = s.advance i (.select seg) := by rw [Zones.step, hcall]
  have hlt : i < s.calls.length := (List.getElem?_eq_some_iff.mp hcall).1
  refine Run.cons (fun seg' read h => nomatch hcall.symm.trans h) (Run.cons ?_ (Run.nil _))
  intro seg' read h
  rw [hstep, Zones.advance, List.getElem?_set_self hlt] at h
  obtain ⟨rfl, rfl⟩ := Call.write.inj (Option.some.inj h)
  rw [hstep]
  exact upToDate_others hids

def noNetwork : String → Option String := fun _ => none

/-- A save for the organization Roma. -/
def save (segId : Option String) (name : String) (members : List String) (fresh : String) : Act :=
  .save ["Roma"] { org := "Roma", segId := segId, name := name, color := "amber",
                   members := members } fresh

/-- A segment of the organization Roma. -/
def zone (segId name : String) (members : List String) : Segment :=
  ⟨segId, "Roma", name, "amber", [], members, [], []⟩

/-- Two segments with the same switch, saved one after the other. -/
def oneAfterTheOther : List Act :=
  [save none "Ufficio" ["sw1"] "a", .turn 0, .turn 0, save none "Reparto" ["sw1"] "b", .turn 1,
    .turn 1]

theorem zones_of_upToDate_oneAfterTheOther :
    OneZone (oneAfterTheOther.foldl (Zones.step noNetwork) Zones.empty).table ∧
      NothingLost (oneAfterTheOther.foldl (Zones.step noNetwork) Zones.empty).table
        (oneAfterTheOther.foldl (Zones.step noNetwork) Zones.empty).log := by
  refine @zones_of_upToDate _ noNetwork oneAfterTheOther ?_
  rw [oneAfterTheOther]
  simp only [List.foldl_cons, List.foldl_nil]
  have first := run_alone (s := Zones.step noNetwork Zones.empty (save none "Ufficio" ["sw1"] "a"))
    (i := 0) noNetwork (zone "a" "Ufficio" ["sw1"]) (by decide) (by decide)
  refine Run.cons (fun _ => by decide) (first.append (Run.cons (fun _ => by decide)
    (run_alone noNetwork (zone "b" "Reparto" ["sw1"]) (by decide) (by decide))))

/-- Two segments with the same switch, saved at the same time. -/
def atTheSameTime : List Act :=
  [save none "Ufficio" ["sw1"] "a", save none "Reparto" ["sw1"] "b", .turn 0, .turn 1, .turn 0,
    .turn 1]

/-- A segment gets a switch between what another save with another switch reads and writes. -/
def writtenBack : List Act :=
  [save none "Ufficio" [] "a", .turn 0, .turn 0, save none "Reparto" ["sw2"] "b", .turn 1,
    save (some "a") "Ufficio" ["sw1"] "", .turn 2, .turn 2, .turn 2, .turn 1]

/-- The switch ends up in two segments; the other switch is lost. -/
theorem switch_in_two_segments :
    ¬OneZone (atTheSameTime.foldl (Zones.step noNetwork) Zones.empty).table ∧
      ¬NothingLost (writtenBack.foldl (Zones.step noNetwork) Zones.empty).table
        (writtenBack.foldl (Zones.step noNetwork) Zones.empty).log := by
  constructor
  · have htable : (atTheSameTime.foldl (Zones.step noNetwork) Zones.empty).table =
        [zone "a" "Ufficio" ["sw1"], zone "b" "Reparto" ["sw1"]] := by decide
    rw [htable]
    intro h
    have hsame := h (zone "a" "Ufficio" ["sw1"]) List.mem_cons_self
      (zone "b" "Reparto" ["sw1"]) (List.mem_cons_of_mem _ List.mem_cons_self) rfl "sw1"
      List.mem_cons_self List.mem_cons_self
    exact absurd hsame (by decide)
  · have htable : (writtenBack.foldl (Zones.step noNetwork) Zones.empty).table =
        [zone "a" "Ufficio" [], zone "b" "Reparto" ["sw2"]] := by decide
    have hlog : (writtenBack.foldl (Zones.step noNetwork) Zones.empty).log =
        [.saved "Roma" "a" []] ++ .saved "Roma" "a" ["sw1"] :: [.saved "Roma" "b" ["sw2"]] := by
      decide
    rw [htable]
    intro h
    rcases h _ _ _ _ _ hlog "sw1" List.mem_cons_self with ⟨r, hr, hid, hn⟩ | ⟨e, he, ht⟩
    · simp only [List.mem_cons, List.not_mem_nil, or_false] at hr
      rcases hr with rfl | rfl
      · exact List.not_mem_nil hn
      · exact absurd hid (by decide)
    · rw [List.mem_singleton.mp he] at ht
      exact absurd ht (by simp [Event.takes])

end SentinelNet.Segments
