import SentinelNet.Ingesters.Ipfix
import SentinelNet.Lib.Runs
import SentinelNet.Lib.WaitingRoom

/-!
# The order of templates and data

A data set that comes before its template is parked and decoded when the template is announced.  As
long as no template is lost and nothing is dropped, the caches are a room in which data sets wait
for their templates, and so the records of a sequence of datagrams do not depend on the order in
which templates and data sets come.

* `parse_eq`: a datagram is its arrivals, one after the other.
* `records_perm`: which data sets are decoded, and with which templates.
* `template_order`: the order does not matter.
* `evicted_template`: it does where a template is evicted.
-/

namespace SentinelNet.Ipfix

open Assoc StepRuns WaitingRoom

/-! ## Arrivals -/

structure Datagram where
  data : Bytes
  exporterIp : String

/-- A template is announced, or a data set comes. -/
abbrev FlowArrival := Arrival Key Fields Parked

def setArrivals (protocol : Protocol) (exporterIp : String) (exportTs domain : ℕ)
    (set : ℕ × Bytes) : List FlowArrival :=
  if set.1 = protocol.templateSet then
    (templateRecords protocol.enterpriseCapable (set.2.length + 1) set.2).map fun t =>
      .announce (exporterIp, domain, t.1) t.2
  else if set.1 = protocol.optionsSet then []
  else if 255 < set.1 then [.item (exporterIp, domain, set.1) ⟨set.2, exporterIp, exportTs⟩]
  else []

def templatedArrivals (protocol : Protocol) (d : Datagram) : List FlowArrival :=
  if d.data.length < protocol.headerLength then []
  else
    (splitSets (d.data.length + 1) (d.data.drop protocol.headerLength)).flatMap
      (setArrivals protocol d.exporterIp (numberAt d.data protocol.timeOffset 4)
        (numberAt d.data protocol.domainOffset 4))

def arrivals (d : Datagram) : List FlowArrival :=
  if d.data.length < 4 then []
  else if numberAt d.data 0 2 = 9 then templatedArrivals netflowV9 d
  else if numberAt d.data 0 2 = 10 then templatedArrivals ipfix d
  else []

def fixedRecords (d : Datagram) : List FlowRecord :=
  if 4 ≤ d.data.length ∧ numberAt d.data 0 2 = 5 then (parseV5 d.data d.exporterIp).getD [] else []

section Order

variable (ipv6Text : Bytes → String) (time : ℕ → ℚ)

/-- What the caches make of an arrival. -/
def answer (c : Cache) : FlowArrival → List FlowRecord × Cache
  | .announce key fields => ([], storeTemplate ipv6Text time key fields c)
  | .item key p => dataSet ipv6Text time key p c

/-- An arrival, as the records so far and the caches meet it. -/
def arrive (acc : List FlowRecord × Cache) (a : FlowArrival) : List FlowRecord × Cache :=
  (acc.1 ++ (answer ipv6Text time acc.2 a).1, (answer ipv6Text time acc.2 a).2)

/-- A datagram, as the records so far and the caches meet it. -/
def receive (acc : List FlowRecord × Cache) (d : Datagram) : List FlowRecord × Cache :=
  (acc.1 ++ (parse ipv6Text time d.data d.exporterIp acc.2).1,
    (parse ipv6Text time d.data d.exporterIp acc.2).2)

def decodeAll (ds : List Datagram) : List FlowRecord × Cache :=
  ds.foldl (receive ipv6Text time) ([], Cache.empty)

theorem foldl_storeTemplate (exporterIp : String) (domain : ℕ) (ts : List (ℕ × Fields))
    (out : List FlowRecord) (c : Cache) :
    (out, ts.foldl (fun c t => storeTemplate ipv6Text time (exporterIp, domain, t.1) t.2 c) c) =
      (ts.map fun t => Arrival.announce (exporterIp, domain, t.1) t.2).foldl
        (arrive ipv6Text time) (out, c) := by
  induction ts generalizing c with
  | nil => rfl
  | cons t ts ih =>
    rw [List.map_cons, List.foldl_cons, List.foldl_cons, ih]
    exact congrArg (List.foldl _ · _) (Prod.ext (List.append_nil out).symm rfl)

theorem handleSet_eq (protocol : Protocol) (exporterIp : String) (exportTs domain : ℕ)
    (acc : List FlowRecord × Cache) (set : ℕ × Bytes) :
    handleSet ipv6Text time protocol exporterIp exportTs domain acc set =
      (setArrivals protocol exporterIp exportTs domain set).foldl (arrive ipv6Text time) acc := by
  unfold handleSet setArrivals
  split
  · exact foldl_storeTemplate ipv6Text time exporterIp domain _ acc.1 acc.2
  · split
    · rfl
    · split
      · rfl
      · rfl

theorem foldl_handleSet (protocol : Protocol) (exporterIp : String) (exportTs domain : ℕ)
    (acc : List FlowRecord × Cache) (sets : List (ℕ × Bytes)) :
    sets.foldl (handleSet ipv6Text time protocol exporterIp exportTs domain) acc =
      (sets.flatMap (setArrivals protocol exporterIp exportTs domain)).foldl
        (arrive ipv6Text time) acc := by
  induction sets generalizing acc with
  | nil => rfl
  | cons set sets ih =>
    rw [List.foldl_cons, ih, handleSet_eq, List.flatMap_cons, List.foldl_append]

/-- The records and the caches after some arrivals, with the records of parked sets. -/
def settle (c : Cache) (as : List FlowArrival) : List FlowRecord × Cache :=
  drain (as.foldl (arrive ipv6Text time) ([], c))

theorem parseTemplated_eq (protocol : Protocol) (d : Datagram) (c : Cache)
    (h : protocol.headerLength ≤ d.data.length) :
    parseTemplated ipv6Text time protocol d.data d.exporterIp c =
      some (settle ipv6Text time c (templatedArrivals protocol d)) := by
  unfold parseTemplated templatedArrivals settle
  rw [if_neg (not_lt.mpr h), if_neg (not_lt.mpr h), foldl_handleSet]

theorem settle_nil {c : Cache} (h : c.decodedPending = []) :
    settle ipv6Text time c [] = ([], c) := by
  obtain ⟨templates, pending, decodedPending, reads, dropped, parseErrors⟩ := c
  obtain rfl : decodedPending = [] := h
  rfl

theorem parseTemplated_getD (protocol : Protocol) (d : Datagram) {c : Cache}
    (h : c.decodedPending = []) :
    ∃ errors, (parseTemplated ipv6Text time protocol d.data d.exporterIp c).getD
        ([], { c with parseErrors := c.parseErrors + 1 }) =
      ((settle ipv6Text time c (templatedArrivals protocol d)).1,
        { (settle ipv6Text time c (templatedArrivals protocol d)).2 with parseErrors := errors }) := by
  by_cases hlt : d.data.length < protocol.headerLength
  · have hparse : parseTemplated ipv6Text time protocol d.data d.exporterIp c = none := if_pos hlt
    have harrivals : templatedArrivals protocol d = [] := if_pos hlt
    rw [hparse, harrivals, settle_nil ipv6Text time h]
    exact ⟨_, rfl⟩
  · rw [parseTemplated_eq ipv6Text time protocol d c (not_lt.mp hlt)]
    exact ⟨_, rfl⟩

/-- A datagram is what it brings, one after the other. -/
theorem parse_eq (d : Datagram) {c : Cache} (h : c.decodedPending = []) :
    ∃ errors, parse ipv6Text time d.data d.exporterIp c =
      (fixedRecords d ++ (settle ipv6Text time c (arrivals d)).1,
        { (settle ipv6Text time c (arrivals d)).2 with parseErrors := errors }) := by
  have hnil := settle_nil ipv6Text time h
  by_cases hshort : d.data.length < 4
  · have hfixed : fixedRecords d = [] := if_neg fun hlong => absurd hlong.1 (not_le.mpr hshort)
    have harrivals : arrivals d = [] := if_pos hshort
    rw [parse, if_pos hshort, hfixed, harrivals, hnil]
    exact ⟨_, rfl⟩
  · rw [parse, if_neg hshort, arrivals, if_neg hshort]
    dsimp only
    by_cases hv5 : numberAt d.data 0 2 = 5
    · have hfixed : fixedRecords d = (parseV5 d.data d.exporterIp).getD [] :=
        if_pos ⟨not_lt.mp hshort, hv5⟩
      rw [hv5, if_pos rfl, if_neg (by decide), if_neg (by decide), hnil, hfixed, List.append_nil]
      cases parseV5 d.data d.exporterIp with
      | none => exact ⟨_, rfl⟩
      | some records => exact ⟨_, rfl⟩
    · have hfixed : fixedRecords d = [] := if_neg fun hfive => hv5 hfive.2
      rw [if_neg hv5, hfixed]
      split
      · exact parseTemplated_getD ipv6Text time netflowV9 d h
      · split
        · exact parseTemplated_getD ipv6Text time ipfix d h
        · rw [hnil]
          exact ⟨_, rfl⟩

/-! ## What the caches hold -/

/-- There are at most as many templates and parked sets as there may be, and a set is parked under
its own exporter. -/
structure Cache.Bounded (c : Cache) : Prop where
  templates : c.templates.length ≤ maxTemplates
  parked : c.parkedSets ≤ maxPendingSets
  own : ∀ e ∈ c.pending, ∀ p ∈ e.2, p.exporterIp = e.1.1

def From (exporterIp : String) : FlowArrival → Prop
  | .announce key _ => key.1 = exporterIp
  | .item key p => key.1 = exporterIp ∧ p.exporterIp = exporterIp

theorem from_of_mem_arrivals {d : Datagram} {a : FlowArrival} (h : a ∈ arrivals d) :
    From d.exporterIp a := by
  have hsets (protocol : Protocol) (h : a ∈ templatedArrivals protocol d) :
      From d.exporterIp a := by
    unfold templatedArrivals at h
    split at h
    · cases h
    · obtain ⟨set, -, h⟩ := List.mem_flatMap.mp h
      unfold setArrivals at h
      split_ifs at h
      · obtain ⟨t, -, rfl⟩ := List.mem_map.mp h
        exact rfl
      · cases h
      · obtain rfl := List.mem_singleton.mp h
        exact ⟨rfl, rfl⟩
      · cases h
  unfold arrivals at h
  split_ifs at h
  · cases h
  · exact hsets _ h
  · exact hsets _ h
  · cases h

theorem exporterIp_of_mem_fixedRecords {d : Datagram} {r : FlowRecord} (h : r ∈ fixedRecords d) :
    r.exporterIp = d.exporterIp := by
  unfold fixedRecords parseV5 at h
  split_ifs at h
  · cases h
  · obtain ⟨i, -, rfl⟩ := List.mem_map.mp h
    rfl
  · cases h

theorem exporterIp_of_mem_decode {fields : Fields} {p : Parked} {r : FlowRecord}
    (h : r ∈ p.decode ipv6Text fields) : r.exporterIp = p.exporterIp := by
  obtain ⟨rec, -, hrec⟩ := List.mem_filterMap.mp h
  unfold Ipfix.normalize at hrec
  split at hrec
  · exact Option.some.inj hrec ▸ rfl
  · cases hrec

theorem length_dropOldest {m : ℕ} (n : ℕ) {templates : List (Key × Fields × ℚ)}
    (h : templates.length ≤ m + n) : (dropOldest^[n] templates).length ≤ m := by
  induction n generalizing templates with
  | zero => exact h
  | succ n ih =>
    refine ih ?_
    unfold dropOldest
    split
    · next e he =>
      have hlt : (erase templates e.1).length < templates.length :=
        List.length_filter_lt_length_iff_exists.mpr ⟨e, List.argmin_mem he, by simp⟩
      omega
    · next he =>
      rw [List.argmin_eq_none.mp he]
      exact Nat.zero_le _

theorem evictIfNeeded_spec (c : Cache) :
    (evictIfNeeded time c).templates.length ≤ maxTemplates ∧
      (evictIfNeeded time c).pending = c.pending ∧
      (evictIfNeeded time c).decodedPending = c.decodedPending := by
  unfold evictIfNeeded
  split
  · next hle => exact ⟨hle, rfl, rfl⟩
  · refine ⟨?_, rfl, rfl⟩
    dsimp only
    exact length_dropOldest _ le_add_tsub

theorem getTemplate_spec (key : Key) (c : Cache) :
    (getTemplate time key c).2.templates.length ≤ c.templates.length ∧
      (getTemplate time key c).2.pending = c.pending ∧
      (getTemplate time key c).2.decodedPending = c.decodedPending := by
  unfold getTemplate
  split
  · exact ⟨le_rfl, rfl, rfl⟩
  · split
    · exact ⟨List.length_filter_le _ _, rfl, rfl⟩
    · exact ⟨le_rfl, rfl, rfl⟩

theorem parkedSets_put (pending : List (Key × List Parked)) (key : Key) (p : Parked) :
    ((put pending key ((find pending key).getD [] ++ [p])).map fun e => e.2.length).sum =
      (pending.map fun e => e.2.length).sum + 1 := by
  induction pending with
  | nil => rfl
  | cons e pending ih =>
    rw [put_cons, find_cons]
    split
    · simp [Nat.add_right_comm]
    · simp [ih, Nat.add_assoc]

/-- An arrival keeps this, and the records it gives are its exporter's. -/
theorem Cache.Bounded.answer {c : Cache} (h : c.Bounded) {a : FlowArrival} {exporterIp : String}
    (ha : From exporterIp a) :
    (answer ipv6Text time c a).2.Bounded ∧
      ∀ r ∈ (answer ipv6Text time c a).1 ++ (answer ipv6Text time c a).2.decodedPending,
        r ∈ c.decodedPending ∨ r.exporterIp = exporterIp := by
  have hown : ∀ key, ∀ p ∈ (find c.pending key).getD [], p.exporterIp = key.1 := by
    intro key p hp
    cases hfind : find c.pending key with
    | none => simp [hfind] at hp
    | some l => exact h.own _ (mem_of_find hfind) p (by rwa [hfind] at hp)
  cases a with
  | announce key fields =>
    obtain ⟨hlength, hpending, hdecoded⟩ := evictIfNeeded_spec time
      { c with templates := put c.templates key (fields, time c.reads), reads := c.reads + 1 }
    rw [Ipfix.answer, storeTemplate]
    dsimp only
    rw [hpending, hdecoded]
    refine ⟨⟨hlength, le_trans ?_ h.parked, fun e he => h.own e (List.mem_filter.mp he).1⟩,
      fun r hr => (List.mem_append.mp (List.nil_append _ ▸ hr)).imp_right fun hr => ?_⟩
    · exact (List.filter_sublist.map _).sum_le_sum fun _ _ => Nat.zero_le _
    · obtain ⟨p, hp, hr⟩ := List.mem_flatMap.mp hr
      exact (exporterIp_of_mem_decode ipv6Text hr).trans ((hown key p hp).trans ha)
  | item key p =>
    have hget := getTemplate_spec time key c
    rw [Ipfix.answer, dataSet]
    rcases hc' : getTemplate time key c with ⟨_ | fields, c'⟩ <;> rw [hc'] at hget <;>
      obtain ⟨hlength, hpending, hdecoded⟩ := hget <;> dsimp only at hlength hpending hdecoded ⊢
    · have hsets : c'.parkedSets = c.parkedSets := by rw [Cache.parkedSets, hpending]; rfl
      unfold bufferPending
      split
      · exact ⟨⟨hlength.trans h.templates, hsets.trans_le h.parked, hpending ▸ h.own⟩,
          fun r hr => .inl (hdecoded ▸ hr)⟩
      · next hlt =>
        refine ⟨⟨hlength.trans h.templates,
          (parkedSets_put c'.pending key p).trans_le (not_le.mp hlt), fun e he q hq => ?_⟩,
          fun r hr => .inl (hdecoded ▸ hr)⟩
        rcases mem_put (hpending ▸ he) with rfl | he
        · rcases List.mem_append.mp hq with hq | hq
          · exact hown key q (hpending ▸ hq)
          · rw [List.mem_singleton.mp hq, ha.1, ha.2]
        · exact h.own e he q hq
    · refine ⟨⟨hlength.trans h.templates, ?_, hpending ▸ h.own⟩, fun r hr => ?_⟩
      · rw [Cache.parkedSets, hpending]
        exact h.parked
      · exact (List.mem_append.mp hr).symm.imp (hdecoded ▸ ·) fun hr =>
          (exporterIp_of_mem_decode ipv6Text hr).trans ha.2

theorem Cache.Bounded.parse {c : Cache} (h : c.Bounded) (hnil : c.decodedPending = [])
    (d : Datagram) :
    (parse ipv6Text time d.data d.exporterIp c).2.Bounded ∧
      (parse ipv6Text time d.data d.exporterIp c).2.decodedPending = [] ∧
      ∀ r ∈ (parse ipv6Text time d.data d.exporterIp c).1, r.exporterIp = d.exporterIp := by
  obtain ⟨errors, heq⟩ := parse_eq ipv6Text time d hnil
  obtain ⟨hbounded, hrecords⟩ := List.foldlRecOn (arrivals d) (arrive ipv6Text time)
    (motive := fun acc => acc.2.Bounded ∧
      ∀ r ∈ acc.1 ++ acc.2.decodedPending, r.exporterIp = d.exporterIp)
    (b := ([], c)) ⟨h, fun r hr => by simp [hnil] at hr⟩ fun acc hacc a ha => by
      obtain ⟨hbounded, hrecords⟩ := hacc.1.answer ipv6Text time (from_of_mem_arrivals ha)
      refine ⟨hbounded, fun r hr => ?_⟩
      rw [arrive, List.append_assoc] at hr
      rcases List.mem_append.mp hr with hr | hr
      · exact hacc.2 r (List.mem_append_left _ hr)
      · exact (hrecords r hr).elim (fun hr => hacc.2 r (List.mem_append_right _ hr)) id
  rw [heq]
  refine ⟨⟨hbounded.templates, hbounded.parked, hbounded.own⟩, rfl, fun r hr => ?_⟩
  exact (List.mem_append.mp hr).elim exporterIp_of_mem_fixedRecords (hrecords r)

/-- Whatever datagrams come and whatever the clock shows, the caches are bounded and no record of a
parked set stays in them, and the next datagram gives records of its own exporter only. -/
theorem bounded_decodeAll (ds : List Datagram) (d : Datagram) :
    let c := (decodeAll ipv6Text time ds).2
    c.Bounded ∧ c.decodedPending = [] ∧
      ∀ r ∈ (parse ipv6Text time d.data d.exporterIp c).1, r.exporterIp = d.exporterIp := by
  have hrun : (decodeAll ipv6Text time ds).2.Bounded ∧
      (decodeAll ipv6Text time ds).2.decodedPending = [] :=
    List.foldlRecOn (motive := fun acc : List FlowRecord × Cache =>
        acc.2.Bounded ∧ acc.2.decodedPending = []) ds _
      ⟨⟨Nat.zero_le _, Nat.zero_le _, fun _ he => by cases he⟩, rfl⟩ fun acc hacc d _ =>
        (hacc.1.parse ipv6Text time hacc.2 d).imp_right And.left
  exact ⟨hrun.1, hrun.2, (hrun.1.parse ipv6Text time hrun.2 d).2.2⟩

/-! ## The caches as a room -/

/-- The records of a data set with its template. -/
def recordsOf (x : Parked × Fields) : List FlowRecord := x.1.decode ipv6Text x.2

/-- The templates are what is known, the parked sets what waits. -/
structure Simulates (c : Cache) (r : Room Key Fields Parked) : Prop where
  known : ∀ k, (find c.templates k).map Prod.fst = r.known k
  waiting : ∀ k, (find c.pending k).getD [] = (r.waiting.filter fun x => x.1 = k).map Prod.snd

theorem simulates_empty : Simulates Cache.empty Room.empty where
  known _ := rfl
  waiting _ := rfl

/-- No template is evicted, the template of a data set has not expired, and there is room for a set
without template. -/
def Calm (c : Cache) : FlowArrival → Prop
  | .announce key fields => (put c.templates key (fields, time c.reads)).length ≤ maxTemplates
  | .item key _ => (∀ e, find c.templates key = some e → time c.reads - e.2 ≤ templateTtlS) ∧
      (find c.templates key = none → c.parkedSets < maxPendingSets)

variable {time}

theorem storeTemplate_of_room {key : Key} {fields : Fields} {c : Cache}
    (h : (put c.templates key (fields, time c.reads)).length ≤ maxTemplates) :
    storeTemplate ipv6Text time key fields c =
      { c with
        templates := put c.templates key (fields, time c.reads)
        reads := c.reads + 1
        pending := erase c.pending key
        decodedPending := c.decodedPending ++
          ((find c.pending key).getD []).flatMap (Parked.decode ipv6Text fields) } := by
  unfold storeTemplate evictIfNeeded
  dsimp only
  rw [if_pos h]

theorem dataSet_of_known {key : Key} {p : Parked} {c : Cache} {fields : Fields} {ts : ℚ}
    (hfind : find c.templates key = some (fields, ts))
    (hfresh : time c.reads - ts ≤ templateTtlS) :
    dataSet ipv6Text time key p c =
      (p.decode ipv6Text fields, { c with reads := c.reads + 1 }) := by
  have hget : getTemplate time key c = (some fields, { c with reads := c.reads + 1 }) := by
    rw [getTemplate, hfind]
    exact if_neg (not_lt.mpr hfresh)
  rw [dataSet, hget]

theorem dataSet_of_unknown {key : Key} {p : Parked} {c : Cache}
    (hfind : find c.templates key = none) (hlimit : c.parkedSets < maxPendingSets) :
    dataSet ipv6Text time key p c =
      ([], { c with pending := put c.pending key ((find c.pending key).getD [] ++ [p]) }) := by
  have hget : getTemplate time key c = (none, c) := by rw [getTemplate, hfind]
  rw [dataSet, hget]
  exact congrArg (Prod.mk []) (if_neg (not_le.mpr hlimit))

variable {ipv6Text}

theorem Simulates.announce {c : Cache} {r : Room Key Fields Parked} (h : Simulates c r) {key : Key}
    {fields : Fields} (hcalm : Calm time c (.announce key fields)) :
    Simulates (answer ipv6Text time c (.announce key fields)).2 (r.step (.announce key fields)).1 ∧
      (answer ipv6Text time c (.announce key fields)).2.decodedPending =
        c.decodedPending ++ (r.step (.announce key fields)).2.flatMap (recordsOf ipv6Text) := by
  have hstore := storeTemplate_of_room ipv6Text hcalm
  rw [answer, hstore]
  refine ⟨⟨fun k => ?_, fun k => ?_⟩, ?_⟩
  · show (find (put c.templates key (fields, time c.reads)) k).map Prod.fst =
      Function.update r.known key (some fields) k
    rw [find_put, Function.update_apply, ← h.known k]
    by_cases hk : key = k
    · rw [if_pos hk, if_pos hk.symm, Option.map_some]
    · rw [if_neg hk, if_neg (Ne.symm hk)]
  · show (find (erase c.pending key) k).getD [] =
      ((r.waiting.filter fun x => x.1 ≠ key).filter fun x => x.1 = k).map Prod.snd
    rw [find_erase, List.filter_filter]
    by_cases hk : key = k
    · rw [if_pos hk, Option.getD_none, List.filter_eq_nil_iff.mpr fun x _ => by simp [hk]]
      rfl
    · rw [if_neg hk, h.waiting k]
      refine congrArg _ (List.filter_congr fun x _ => ?_)
      by_cases hx : x.1 = k
      · simp [hx, Ne.symm hk]
      · simp [hx]
  · show c.decodedPending ++ ((find c.pending key).getD []).flatMap _ =
      c.decodedPending ++ ((r.waiting.filter fun x => x.1 = key).map fun x => (x.2, fields)).flatMap _
    rw [h.waiting key, List.flatMap_map, List.flatMap_map]
    rfl

theorem Simulates.item {c : Cache} {r : Room Key Fields Parked} (h : Simulates c r) {key : Key}
    {p : Parked} (hcalm : Calm time c (.item key p)) :
    Simulates (answer ipv6Text time c (.item key p)).2 (r.step (.item key p)).1 ∧
      (answer ipv6Text time c (.item key p)).1 =
        (r.step (.item key p)).2.flatMap (recordsOf ipv6Text) ∧
      (answer ipv6Text time c (.item key p)).2.decodedPending = c.decodedPending := by
  obtain ⟨hfresh, hlimit⟩ := hcalm
  have hknown := h.known key
  cases hfind : find c.templates key with
  | none =>
    rw [hfind] at hknown
    have hstep : r.step (.item key p) = ({ r with waiting := r.waiting ++ [(key, p)] }, []) := by
      rw [Room.step, ← hknown]
      rfl
    rw [answer, dataSet_of_unknown ipv6Text hfind (hlimit hfind), hstep]
    refine ⟨⟨h.known, fun k => ?_⟩, rfl, rfl⟩
    show (find (put c.pending key ((find c.pending key).getD [] ++ [p])) k).getD [] =
      ((r.waiting ++ [(key, p)]).filter fun x => x.1 = k).map Prod.snd
    rw [find_put, List.filter_append, List.map_append, ← h.waiting k]
    by_cases hk : key = k
    · simp [hk]
    · simp [hk]
  | some e =>
    rw [hfind] at hknown
    have hstep : r.step (.item key p) = (r, [(p, e.1)]) := by
      rw [Room.step, ← hknown]
      rfl
    rw [answer, dataSet_of_known ipv6Text hfind (hfresh e hfind), hstep]
    exact ⟨⟨h.known, h.waiting⟩, (List.append_nil _).symm, rfl⟩

def after (ipv6Text : Bytes → String) (time : ℕ → ℚ) (c : Cache) (a : FlowArrival) : Cache :=
  (answer ipv6Text time c a).2

theorem Simulates.after {c : Cache} {r : Room Key Fields Parked} {a : FlowArrival}
    (h : Simulates c r) (hcalm : Calm time c a) :
    Simulates (after ipv6Text time c a) (r.step a).1 ∧
      ((answer ipv6Text time c a).1 ++ (Ipfix.after ipv6Text time c a).decodedPending).Perm
        (c.decodedPending ++ (r.step a).2.flatMap (recordsOf ipv6Text)) := by
  cases a with
  | announce key fields =>
    obtain ⟨hsim, hdecoded⟩ := @Simulates.announce ipv6Text _ _ _ h _ _ hcalm
    exact ⟨hsim, List.Perm.of_eq hdecoded⟩
  | item key p =>
    obtain ⟨hsim, hrecords, hdecoded⟩ := @Simulates.item ipv6Text _ _ _ h _ _ hcalm
    refine ⟨hsim, ?_⟩
    rw [Ipfix.after, hdecoded, hrecords]
    exact List.perm_append_comm

theorem Simulates.run {c c' : Cache} {r : Room Key Fields Parked} {as : List FlowArrival}
    (h : Simulates c r) (hrun : Run (Ipfix.after ipv6Text time) (Calm time) c as c')
    (out : List FlowRecord) :
    Simulates c' (as.foldl (fun r a => (r.step a).1) r) ∧
      (as.foldl (arrive ipv6Text time) (out, c)).2 = c' ∧
      ((as.foldl (arrive ipv6Text time) (out, c)).1 ++ c'.decodedPending).Perm
        (out ++ c.decodedPending ++ (r.serves as).flatMap (recordsOf ipv6Text)) := by
  induction hrun generalizing r out with
  | nil c => exact ⟨h, rfl, List.Perm.of_eq (List.append_nil _).symm⟩
  | @cons c c' a as hcalm _ ih =>
    obtain ⟨hsim, hone⟩ := @Simulates.after ipv6Text _ _ _ _ h hcalm
    obtain ⟨hdone, hcache, hrest⟩ := ih hsim (out ++ (answer ipv6Text time c a).1)
    refine ⟨hdone, hcache, hrest.trans ?_⟩
    rw [Room.serves, List.flatMap_append, List.append_assoc out, List.append_assoc out,
      List.append_assoc out, ← List.append_assoc c.decodedPending]
    exact (hone.append_right _).append_left out

/-! ## Datagrams in calm caches -/

def afterDatagram (ipv6Text : Bytes → String) (time : ℕ → ℚ) (c : Cache) (d : Datagram) : Cache :=
  (parse ipv6Text time d.data d.exporterIp c).2

/-- Every arrival of a datagram meets a condition. -/
def EachArrival (ipv6Text : Bytes → String) (time : ℕ → ℚ) (P : Cache → FlowArrival → Prop)
    (c : Cache) (d : Datagram) : Prop :=
  ∃ c', Run (after ipv6Text time) P c (arrivals d) c'

def DatagramRun (ipv6Text : Bytes → String) (time : ℕ → ℚ) (P : Cache → FlowArrival → Prop)
    (ds : List Datagram) : Prop :=
  ∃ c, Run (afterDatagram ipv6Text time) (EachArrival ipv6Text time P) Cache.empty ds c

theorem Simulates.datagram {c : Cache} {r : Room Key Fields Parked} {d : Datagram}
    (h : Simulates c r) (hdrained : c.decodedPending = [])
    (hcalm : EachArrival ipv6Text time (Calm time) c d) :
    Simulates (afterDatagram ipv6Text time c d) ((arrivals d).foldl (fun r a => (r.step a).1) r) ∧
      (afterDatagram ipv6Text time c d).decodedPending = [] ∧
      (parse ipv6Text time d.data d.exporterIp c).1.Perm
        (fixedRecords d ++ (r.serves (arrivals d)).flatMap (recordsOf ipv6Text)) := by
  obtain ⟨c', hrun⟩ := hcalm
  obtain ⟨hsim, hcache, hperm⟩ := h.run hrun []
  obtain ⟨errors, hparse⟩ := parse_eq ipv6Text time d hdrained
  rw [hdrained] at hperm
  have hsettle : settle ipv6Text time c (arrivals d) =
      (((arrivals d).foldl (arrive ipv6Text time) ([], c)).1 ++ c'.decodedPending,
        { c' with decodedPending := [] }) := by
    unfold settle drain
    rw [hcache]
  rw [afterDatagram, hparse, hsettle]
  exact ⟨⟨hsim.known, hsim.waiting⟩, rfl, hperm.append_left _⟩

theorem Simulates.datagrams {c c' : Cache} {r : Room Key Fields Parked} {ds : List Datagram}
    (h : Simulates c r) (hdrained : c.decodedPending = [])
    (hrun : Run (afterDatagram ipv6Text time) (EachArrival ipv6Text time (Calm time)) c ds c')
    (out : List FlowRecord) :
    Simulates (ds.foldl (receive ipv6Text time) (out, c)).2
        ((ds.flatMap arrivals).foldl (fun r a => (r.step a).1) r) ∧
      (ds.foldl (receive ipv6Text time) (out, c)).1.Perm
        (out ++ ds.flatMap fixedRecords ++
          (r.serves (ds.flatMap arrivals)).flatMap (recordsOf ipv6Text)) := by
  induction hrun generalizing r out with
  | nil c => exact ⟨h, List.Perm.of_eq (by simp [Room.serves])⟩
  | @cons c c' d ds hcalm _ ih =>
    obtain ⟨hsim, hempty, hone⟩ := h.datagram hdrained hcalm
    obtain ⟨hdone, hrest⟩ := ih hsim hempty (out ++ (parse ipv6Text time d.data d.exporterIp c).1)
    rw [List.flatMap_cons, List.foldl_append]
    refine ⟨hdone, hrest.trans ?_⟩
    rw [List.flatMap_cons, serves_append, List.flatMap_append]
    generalize (parse ipv6Text time d.data d.exporterIp c).1 = records at hone
    generalize fixedRecords d = fixed at hone ⊢
    generalize (r.serves (arrivals d)).flatMap (recordsOf ipv6Text) = decoded at hone ⊢
    generalize ds.flatMap fixedRecords = fixed'
    generalize (Room.serves _ (ds.flatMap arrivals)).flatMap (recordsOf ipv6Text) = rest
    have hmiddle : (records ++ fixed').Perm (fixed ++ fixed' ++ decoded) :=
      calc (records ++ fixed').Perm (fixed ++ decoded ++ fixed') := hone.append_right fixed'
        _ = fixed ++ (decoded ++ fixed') := List.append_assoc _ _ _
        _ |>.Perm (fixed ++ (fixed' ++ decoded)) := List.perm_append_comm.append_left fixed
        _ = fixed ++ fixed' ++ decoded := (List.append_assoc _ _ _).symm
    calc out ++ records ++ fixed' ++ rest = out ++ (records ++ fixed') ++ rest := by
          rw [List.append_assoc out]
      _ |>.Perm (out ++ (fixed ++ fixed' ++ decoded) ++ rest) :=
          (hmiddle.append_left out).append_right rest
      _ = out ++ (fixed ++ fixed') ++ (decoded ++ rest) := by
          rw [← List.append_assoc out, List.append_assoc _ decoded]

/-! ## The order -/

section Runs

variable {ds ps qs : List Datagram} {time' : ℕ → ℚ}

section

variable (hrun : DatagramRun ipv6Text time (Calm time) ds)

include hrun

theorem simulates_decodeAll :
    Simulates (decodeAll ipv6Text time ds).2 (roomAfter (ds.flatMap arrivals)) ∧
      (decodeAll ipv6Text time ds).1.Perm (ds.flatMap fixedRecords ++
        (served (ds.flatMap arrivals)).flatMap (recordsOf ipv6Text)) := by
  obtain ⟨c, hrun⟩ := hrun
  exact simulates_empty.datagrams rfl hrun []

/-- Every data set whose template is announced, sooner or later, is decoded once, with the template
of its exporter, its domain and its number. -/
theorem records_perm (hone : Consistent (ds.flatMap arrivals)) :
    (decodeAll ipv6Text time ds).1.Perm (ds.flatMap fixedRecords ++
      ((items (ds.flatMap arrivals)).filterMap (resolved (ds.flatMap arrivals))).flatMap
        (recordsOf ipv6Text)) :=
  (simulates_decodeAll hrun).2.trans
    (((served_perm hone).flatMap_right _).append_left _)

theorem parked_decodeAll (key : Key) :
    (find (decodeAll ipv6Text time ds).2.pending key).getD [] =
      ((items (ds.flatMap arrivals)).filter fun x =>
        x.1 = key ∧ announced (ds.flatMap arrivals) key = none).map Prod.snd := by
  rw [(simulates_decodeAll hrun).1.waiting key, waiting_roomAfter, List.filter_filter]
  refine congrArg _ (List.filter_congr fun x _ => ?_)
  by_cases hx : x.1 = key
  · rw [hx]
    cases announced (ds.flatMap arrivals) key with
    | none => simp
    | some fields => simp
  · simp [hx]

end

/-- As long as no template expires or is evicted and the buffer has room, the records do not depend
on the order in which templates and data sets come: every data set whose template is announced is
decoded once, with the template of its exporter, its domain and its number, and the others stay
parked. -/
theorem template_order (hps : DatagramRun ipv6Text time (Calm time) ps)
    (hqs : DatagramRun ipv6Text time' (Calm time') qs) (hone : Consistent (ps.flatMap arrivals))
    (hsame : SameArrivals (ps.flatMap arrivals) (qs.flatMap arrivals))
    (hfixed : (ps.flatMap fixedRecords).Perm (qs.flatMap fixedRecords)) :
    (decodeAll ipv6Text time ps).1.Perm (decodeAll ipv6Text time' qs).1 ∧
      (decodeAll ipv6Text time ps).1.Perm (ps.flatMap fixedRecords ++
        ((items (ps.flatMap arrivals)).filterMap (resolved (ps.flatMap arrivals))).flatMap
          (recordsOf ipv6Text)) ∧
      ∀ key, (find (decodeAll ipv6Text time ps).2.pending key).getD [] =
        ((items (ps.flatMap arrivals)).filter fun x =>
          x.1 = key ∧ announced (ps.flatMap arrivals) key = none).map Prod.snd := by
  refine ⟨?_, records_perm hps hone, parked_decodeAll hps⟩
  have hserved := (served_perm_of_same hone hsame).flatMap_right (recordsOf ipv6Text)
  exact (simulates_decodeAll hps).2.trans
    ((hfixed.append hserved).trans (simulates_decodeAll hqs).2.symm)

end Runs

end Order

/-! ## A template and a data set -/

/-- A datagram of version 9 with one set, from the same exporter and domain. -/
def oneSet (set : Bytes) : Datagram where
  data := [0, 9, 0, 1, 0, 0, 0, 0, 0, 0, 0, 100, 0, 0, 0, 1, 0, 0, 0, 7] ++ set
  exporterIp := "10.9.9.9"

/-- A template of a source and a destination, with its number. -/
def templateOf (tid : ℕ) : Datagram :=
  oneSet [0, 0, 0, 16, UInt8.ofNat (tid / 256), UInt8.ofNat tid, 0, 2, 0, 8, 0, 4, 0, 12, 0, 4]

def dataOf256 : Datagram := oneSet [1, 0, 0, 12, 10, 0, 0, 1, 10, 0, 0, 2]

def addressFields : Fields := [(8, 4), (12, 4)]

/-- The key of the template with a number. -/
def keyOf (tid : ℕ) : Key := ("10.9.9.9", 7, tid)

theorem arrivals_templateOf {tid : ℕ} (h : tid < 65536) :
    arrivals (templateOf tid) = [.announce (keyOf tid) addressFields] := by
  have htid : uint [UInt8.ofNat (tid / 256), UInt8.ofNat tid] = tid := by
    simp only [uint, List.foldl_cons, List.foldl_nil, UInt8.toNat_ofNat']
    omega
  have harrivals (a b : UInt8) : arrivals (oneSet [0, 0, 0, 16, a, b, 0, 2, 0, 8, 0, 4, 0, 12, 0, 4]) =
      [.announce ("10.9.9.9", 7, uint [a, b]) addressFields] := rfl
  rw [templateOf, harrivals, htid, keyOf]

theorem arrivals_dataOf256 : arrivals dataOf256 =
    [.item (keyOf 256) ⟨[10, 0, 0, 1, 10, 0, 0, 2], "10.9.9.9", 100⟩] := rfl

theorem consistent_templates {tids : List ℕ} (h : ∀ tid ∈ tids, tid < 65536) :
    Consistent ((dataOf256 :: tids.map templateOf).flatMap arrivals) := by
  have hfields {k : Key} {f : Fields}
      (hmem : Arrival.announce k f ∈ (dataOf256 :: tids.map templateOf).flatMap arrivals) :
      f = addressFields := by
    rw [List.flatMap_cons, List.mem_append, List.flatMap_map, List.mem_flatMap] at hmem
    rcases hmem with hmem | ⟨tid, htid, hmem⟩
    · exact absurd hmem (by simp [arrivals_dataOf256])
    · rw [arrivals_templateOf (h tid htid), List.mem_singleton] at hmem
      exact (Arrival.announce.inj hmem).2
  exact fun _ _ _ _ _ hf hf' => (hfields hf).trans (hfields hf').symm

theorem template_order_two :
    (decodeAll (fun _ => "::") (fun _ => 0) [templateOf 256, dataOf256]).1.Perm
      (decodeAll (fun _ => "::") (fun _ => 0) [dataOf256, templateOf 256]).1 := by
  refine (@template_order (fun _ => "::") (fun _ => 0) _ _ (fun _ => 0) ?_ ?_ ?_ ?_ ?_).1
  · refine ⟨_, .cons ⟨_, .cons ?_ (.nil _)⟩ (.cons ⟨_, .cons ?_ (.nil _)⟩ (.nil _))⟩
    · show (1 : ℕ) ≤ maxTemplates
      decide
    · refine ⟨fun e he => ?_, fun hnone => absurd hnone (by decide)⟩
      obtain rfl : (addressFields, (0 : ℚ)) = e := Option.some.inj he
      show (0 : ℚ) - 0 ≤ 1800
      norm_num
  · refine ⟨_, .cons ⟨_, .cons ?_ (.nil _)⟩ (.cons ⟨_, .cons ?_ (.nil _)⟩ (.nil _))⟩
    · exact ⟨fun e he => absurd he (by simp [Cache.empty]), fun _ => by decide⟩
    · show (1 : ℕ) ≤ maxTemplates
      decide
  · exact (consistent_templates (by decide : ∀ tid ∈ [256], tid < 65536)).of_same
      (SameArrivals.of_perm ((List.Perm.swap _ _ _).flatMap_right _))
  · exact SameArrivals.of_perm ((List.Perm.swap _ _ _).flatMap_right _)
  · exact List.Perm.refl _

/-! ## Eviction -/

/-- The cached templates have not expired, and fewer data sets are parked than the limit. -/
def Unexpired (time : ℕ → ℚ) (c : Cache) : Prop :=
  (∀ e ∈ c.templates, time c.reads - e.2.2 ≤ templateTtlS) ∧ c.parkedSets < maxPendingSets

/-- The templates with the numbers from 256 on. -/
def table (n : ℕ) : List (Key × Fields × ℚ) :=
  (List.range n).map fun i => (keyOf (256 + i), addressFields, 0)

/-- Some templates are cached, and nothing is parked. -/
structure Filled (n : ℕ) (c : Cache) : Prop where
  templates : c.templates = table n
  pending : c.pending = []
  drained : c.decodedPending = []

theorem fresh_table {n : ℕ} {e : Key × Fields × ℚ} (he : e ∈ table n) :
    (0 : ℚ) - e.2.2 ≤ templateTtlS := by
  obtain ⟨i, -, rfl⟩ := List.mem_map.mp he
  show (0 : ℚ) - 0 ≤ 1800
  norm_num

theorem unexpired_of_table {n : ℕ} {c : Cache} (h : ∀ e ∈ c.templates, e ∈ table n)
    (hpending : c.pending = []) : Unexpired (fun _ => 0) c := by
  refine ⟨fun e he => fresh_table (h e he), ?_⟩
  rw [Cache.parkedSets, hpending]
  decide

theorem Filled.unexpired {n : ℕ} {c : Cache} (h : Filled n c) : Unexpired (fun _ => 0) c :=
  unexpired_of_table (fun _ he => h.templates ▸ he) h.pending

theorem put_table (n : ℕ) :
    put (table n) (keyOf (256 + n)) (addressFields, 0) = table (n + 1) := by
  have hnew : keyOf (256 + n) ∉ (table n).map Prod.fst := by
    intro hmem
    simp only [table, List.map_map, List.mem_map, List.mem_range, Function.comp_apply, keyOf,
      Prod.mk.injEq, true_and] at hmem
    obtain ⟨i, hi, heq⟩ := hmem
    omega
  rw [put_of_not_mem hnew, table, table, List.range_succ, List.map_append]
  rfl

theorem length_table (n : ℕ) : (table n).length = n := by
  rw [table, List.length_map, List.length_range]

theorem argmin_cons {α : Type*} {f : α → ℚ} {a : α} {l : List α} (h : ∀ b ∈ l, f b = f a) :
    (a :: l).argmin f = some a := by
  classical
  refine List.argmin_eq_some_iff.mpr ⟨List.mem_cons_self, fun b hb => ?_, fun b _ _ => ?_⟩
  · rcases List.mem_cons.mp hb with rfl | hb
    · exact le_refl _
    · exact (h b hb).ge
  · rw [List.idxOf_cons_eq l rfl]
    exact Nat.zero_le _

theorem dropOldest_table (n : ℕ) :
    dropOldest (table (n + 1)) = erase (table (n + 1)) (keyOf 256) := by
  have hcons : table (n + 1) =
      (keyOf 256, addressFields, 0) ::
        (List.range n).map fun i => (keyOf (256 + (i + 1)), addressFields, 0) := by
    rw [table, List.range_succ_eq_map, List.map_cons, List.map_map]
    rfl
  have hfirst : (table (n + 1)).argmin (fun e => e.2.2) = some (keyOf 256, addressFields, 0) := by
    rw [hcons]
    refine argmin_cons fun e he => ?_
    obtain ⟨i, -, rfl⟩ := List.mem_map.mp he
    rfl
  rw [dropOldest, hfirst]

section Evicted

variable {ipv6Text : Bytes → String}

theorem parse_templateOf {tid : ℕ} (htid : tid < 65536) {c : Cache} (h : c.decodedPending = [])
    (hpending : c.pending = []) :
    (parse ipv6Text (fun _ => 0) (templateOf tid).data (templateOf tid).exporterIp c).1 = [] ∧
      (afterDatagram ipv6Text (fun _ => 0) c (templateOf tid)).templates =
        (evictIfNeeded (fun _ => 0) { c with
          templates := put c.templates (keyOf tid) (addressFields, 0)
          reads := c.reads + 1 }).templates ∧
      (afterDatagram ipv6Text (fun _ => 0) c (templateOf tid)).pending = [] ∧
      (afterDatagram ipv6Text (fun _ => 0) c (templateOf tid)).decodedPending = [] := by
  obtain ⟨errors, hparse⟩ := parse_eq ipv6Text (fun _ => 0) (templateOf tid) h
  have hfixed : fixedRecords (templateOf tid) = [] := if_neg fun hfive => by
    have hversion : numberAt (templateOf tid).data 0 2 = 9 := rfl
    rw [hversion] at hfive
    exact absurd hfive.2 (by decide)
  have hsettle : settle ipv6Text (fun _ => 0) c [.announce (keyOf tid) addressFields] =
      drain ([], storeTemplate ipv6Text (fun _ => 0) (keyOf tid) addressFields c) := rfl
  have hevict (c : Cache) : (evictIfNeeded (fun _ => 0) c).pending = c.pending ∧
      (evictIfNeeded (fun _ => 0) c).decodedPending = c.decodedPending := by
    unfold evictIfNeeded
    split
    · exact ⟨rfl, rfl⟩
    · exact ⟨rfl, rfl⟩
  rw [afterDatagram, hparse, arrivals_templateOf htid, hfixed, hsettle, storeTemplate, drain]
  dsimp only
  rw [(hevict _).1, (hevict _).2, h, hpending]
  exact ⟨rfl, rfl, rfl, rfl⟩

theorem Filled.step {n : ℕ} {c : Cache} (h : Filled n c) (hn : n < maxTemplates) :
    Filled (n + 1) (afterDatagram ipv6Text (fun _ => 0) c (templateOf (256 + n))) := by
  have htid : 256 + n < 65536 := by
    rw [maxTemplates] at hn
    omega
  obtain ⟨-, htemplates, hpending, hdrained⟩ :=
    @parse_templateOf ipv6Text _ htid c h.drained h.pending
  refine ⟨?_, hpending, hdrained⟩
  rw [htemplates, h.templates, put_table, evictIfNeeded, if_pos]
  rw [length_table]
  exact hn

theorem Filled.eachArrival {n tid : ℕ} {c : Cache} (h : Filled n c) (htid : tid < 65536) :
    EachArrival ipv6Text (fun _ => 0) (fun c _ => Unexpired (fun _ => 0) c) c (templateOf tid) := by
  unfold EachArrival
  rw [arrivals_templateOf htid]
  exact ⟨_, .cons h.unexpired (.nil _)⟩

theorem Filled.evicts {c : Cache} (h : Filled maxTemplates c) :
    (afterDatagram ipv6Text (fun _ => 0) c (templateOf (256 + maxTemplates))).templates =
      erase (table (maxTemplates + 1)) (keyOf 256) := by
  obtain ⟨-, htemplates, -, -⟩ :=
    @parse_templateOf ipv6Text (256 + maxTemplates) (by decide) c h.drained h.pending
  have hlive : (table (maxTemplates + 1)).filter
      (fun e => (0 : ℚ) - e.2.2 ≤ templateTtlS) = table (maxTemplates + 1) :=
    List.filter_eq_self.mpr fun e he => decide_eq_true (fresh_table he)
  rw [htemplates, h.templates, put_table, evictIfNeeded, if_neg (by rw [length_table]; omega)]
  dsimp only
  rw [hlive, length_table, Nat.add_sub_cancel_left, Function.iterate_one, dropOldest_table]

theorem Filled.run {n : ℕ} {c : Cache} (h : Filled n c) (k : ℕ) (hk : n + k ≤ maxTemplates)
    (out : List FlowRecord) :
    ∃ c', Filled (n + k) c' ∧
      Run (afterDatagram ipv6Text fun _ => 0)
        (EachArrival ipv6Text (fun _ => 0) fun c _ => Unexpired (fun _ => 0) c) c
        ((List.range' (256 + n) k).map templateOf) c' ∧
      ((List.range' (256 + n) k).map templateOf).foldl (receive ipv6Text fun _ => 0) (out, c) =
        (out, c') := by
  induction k generalizing n c with
  | zero => exact ⟨c, h, .nil c, rfl⟩
  | succ k ih =>
    have hn : n < maxTemplates := by omega
    have htid : 256 + n < 65536 := by
      rw [maxTemplates] at hn
      omega
    have hstep := @Filled.step ipv6Text _ _ h hn
    obtain ⟨c', hfilled, hrun, hfold⟩ := ih hstep (by omega)
    have hrecords := (@parse_templateOf ipv6Text _ htid c h.drained h.pending).1
    rw [Nat.add_right_comm] at hfilled
    refine ⟨c', hfilled, ?_, ?_⟩
    · rw [List.range'_succ, List.map_cons]
      exact .cons (h.eachArrival htid) hrun
    · rw [List.range'_succ, List.map_cons, List.foldl_cons, receive, hrecords, List.append_nil]
      exact hfold

theorem decoded_first : ∃ c out, Filled 1 c ∧ out ≠ [] ∧
    Run (afterDatagram ipv6Text fun _ => 0)
      (EachArrival ipv6Text (fun _ => 0) fun c _ => Unexpired (fun _ => 0) c) Cache.empty
      [dataOf256, templateOf 256] c ∧
    [dataOf256, templateOf 256].foldl (receive ipv6Text fun _ => 0) ([], Cache.empty) =
      (out, c) := by
  refine ⟨_, _, ⟨rfl, rfl, rfl⟩, ?_,
    .cons ⟨_, .cons ⟨?_, ?_⟩ (.nil _)⟩ (.cons ⟨_, .cons ⟨?_, ?_⟩ (.nil _)⟩ (.nil _)), rfl⟩
  · exact List.cons_ne_nil _ _
  · exact fun e he => nomatch he
  · decide
  · exact fun e he => nomatch he
  · show (1 : ℕ) < maxPendingSets
    decide

theorem parse_dataOf256 {c : Cache} (h : find c.templates (keyOf 256) = none)
    (hdrained : c.decodedPending = []) :
    (parse ipv6Text (fun _ => 0) dataOf256.data dataOf256.exporterIp c).1 = [] := by
  obtain ⟨errors, hparse⟩ := parse_eq ipv6Text (fun _ => 0) dataOf256 hdrained
  have hget : getTemplate (fun _ => 0) (keyOf 256) c = (none, c) := by rw [getTemplate, h]
  have hbuffer (p : Parked) : (bufferPending (keyOf 256) p c).decodedPending = [] := by
    unfold bufferPending
    split
    · exact hdrained
    · exact hdrained
  rw [hparse, arrivals_dataOf256, settle, List.foldl_cons, List.foldl_nil, arrive, answer, dataSet,
    hget, drain]
  exact hbuffer _

end Evicted

/-- Where a template is evicted the order matters: the data set before the templates is decoded,
and the data set behind them is not. -/
theorem evicted_template : ¬ ∀ (ipv6Text : Bytes → String) (time time' : ℕ → ℚ)
    (ps qs : List Datagram),
    DatagramRun ipv6Text time (fun c _ => Unexpired time c) ps →
    DatagramRun ipv6Text time' (fun c _ => Unexpired time' c) qs →
    Consistent (ps.flatMap arrivals) →
    SameArrivals (ps.flatMap arrivals) (qs.flatMap arrivals) →
    (ps.flatMap fixedRecords).Perm (qs.flatMap fixedRecords) →
    (decodeAll ipv6Text time ps).1.Perm (decodeAll ipv6Text time' qs).1 := by
  intro hall
  have hlast : 256 + maxTemplates < 65536 := by decide
  have hrange : (List.range' 256 (maxTemplates + 1)).map templateOf =
      (List.range' 256 maxTemplates).map templateOf ++ [templateOf (256 + maxTemplates)] := by
    rw [List.range'_1_concat, List.map_append]
    rfl
  have hrange' : dataOf256 :: (List.range' 256 (maxTemplates + 1)).map templateOf =
      [dataOf256, templateOf 256] ++ (List.range' (256 + 1) (maxTemplates - 1)).map templateOf ++
        [templateOf (256 + maxTemplates)] := by
    rw [hrange]
    rfl
  -- the data set, its template, the templates that fit, and one more
  obtain ⟨c, out, hfilled, hout, hfirst, hfold⟩ := @decoded_first fun _ => "::"
  obtain ⟨c', hfilled', hrest, hfold'⟩ :=
    hfilled.run (maxTemplates - 1) (by decide) out
  have hps : DatagramRun (fun _ => "::") (fun _ => 0) (fun c _ => Unexpired (fun _ => 0) c)
      (dataOf256 :: (List.range' 256 (maxTemplates + 1)).map templateOf) := by
    rw [hrange']
    exact ⟨_, (hfirst.append hrest).append (.cons (hfilled'.eachArrival hlast) (.nil _))⟩
  have hdecoded : (decodeAll (fun _ => "::") (fun _ => 0)
      (dataOf256 :: (List.range' 256 (maxTemplates + 1)).map templateOf)).1 = out := by
    rw [hrange', decodeAll, List.foldl_append, List.foldl_append, hfold, hfold', List.foldl_cons,
      List.foldl_nil, receive, (parse_templateOf hlast hfilled'.drained hfilled'.pending).1]
    exact List.append_nil _
  -- the templates that fit, one more, and the data set
  have hempty : Filled 0 Cache.empty := ⟨rfl, rfl, rfl⟩
  obtain ⟨d, hfull, htemplates, hfold''⟩ :=
    @Filled.run (fun _ => "::") _ _ hempty maxTemplates (by decide) []
  rw [Nat.zero_add] at hfull
  obtain ⟨hnone, -, hpending, hdrained⟩ :=
    @parse_templateOf (fun _ => "::") _ hlast d hfull.drained hfull.pending
  have hevicted := @Filled.evicts (fun _ => "::") _ hfull
  have hmissing : find (afterDatagram (fun _ => "::") (fun _ => 0) d
      (templateOf (256 + maxTemplates))).templates (keyOf 256) = none := by
    rw [hevicted, find_erase, if_pos rfl]
  have hunexpired := unexpired_of_table (fun e he => by
    rw [hevicted] at he
    exact List.mem_of_mem_filter he) hpending
  have hqs : DatagramRun (fun _ => "::") (fun _ => 0) (fun c _ => Unexpired (fun _ => 0) c)
      ((List.range' 256 (maxTemplates + 1)).map templateOf ++ [dataOf256]) := by
    rw [hrange]
    exact ⟨_, (htemplates.append (.cons (hfull.eachArrival hlast) (.nil _))).append
      (.cons ⟨_, .cons hunexpired (.nil _)⟩ (.nil _))⟩
  have hrecords := @parse_dataOf256 (fun _ => "::") _ hmissing hdrained
  rw [afterDatagram] at hrecords
  have hparked : (decodeAll (fun _ => "::") (fun _ => 0)
      ((List.range' 256 (maxTemplates + 1)).map templateOf ++ [dataOf256])).1 = [] := by
    rw [hrange, decodeAll, List.foldl_append, List.foldl_append, hfold'', List.foldl_cons,
      List.foldl_nil, List.foldl_cons, List.foldl_nil, receive, receive, hnone, hrecords]
    rfl
  have hperm : (dataOf256 :: (List.range' 256 (maxTemplates + 1)).map templateOf).Perm
      ((List.range' 256 (maxTemplates + 1)).map templateOf ++ [dataOf256]) :=
    (List.perm_append_singleton dataOf256 _).symm
  have hone : Consistent ((dataOf256 :: (List.range' 256 (maxTemplates + 1)).map templateOf).flatMap
      arrivals) := consistent_templates fun tid htid => by
    rw [List.mem_range'_1, maxTemplates] at htid
    omega
  have hsame := hall _ _ _ _ _ hps hqs hone (SameArrivals.of_perm (hperm.flatMap_right _))
    (hperm.flatMap_right _)
  rw [hdecoded, hparked] at hsame
  exact hout hsame.eq_nil

end SentinelNet.Ipfix
