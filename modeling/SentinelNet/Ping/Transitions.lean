import SentinelNet.Lib.Debounce
import SentinelNet.Ping.Monitor

/-!
# Down, up, down

A device that is pinged in every cycle is reported down, or up again, when its second ping in a row
says so.  The monitor has its entries under addresses alone, for the rows of all organizations, and
seeds them in two ways: an address that is seen first counts as reported, and one that comes back
from a probe without a direct path has nothing reported.

* `Matches`: an entry is a counter of equal results.
* `reports_of_clear`: in such stretches the device is reported as it should be.
-/

namespace SentinelNet.Ping

open Assoc Inventory Debounce

section Law

variable (env : Codec)

def run (s : State) (cycles : List Cycle) : State :=
  cycles.foldl (fun s c => (runCycle env c s).1) s

/-- A device that a cycle is to ping: its row takes part in the cycle and its probe has a direct
path. -/
def Pingable (c : Cycle) (tenant ip : String) : Prop :=
  ∃ d ∈ c.devices, c.counts env d ∧ d.group = tenant ∧ address d = ip ∧
    hasDirectPath c.probes (probeOf d)

/-- The kinds of the notifications about an address, cycle by cycle. -/
def told : State → List Cycle → String → List (List String)
  | _, [], _ => []
  | s, c :: cycles, ip =>
    ((runCycle env c s).2.filter (·.deviceIp = ip)).map (·.kind) ::
      told (runCycle env c s).1 cycles ip

/-- The kind of the notification of a result. -/
def kindOf (up : Bool) : String := if up then "device.up" else "device.down"

/-- What is to be told of an address: the changes that a second result confirms, with up as what was
told at first. -/
def expected (stretch : List Cycle) (ip : String) : List (List String) :=
  (announcements true [] (stretch.map fun c => c.ping ip)).map fun a => (a.map kindOf).toList

/-- An address is reported as it should be over a stretch of cycles after others: at the right
cycles, down and up in turn, and never without a measurement. -/
structure Reports (before stretch : List Cycle) (ip : String) : Prop where
  told : told env (run env .start before) stretch ip = expected stretch ip
  alternate : ("device.up" :: (Ping.told env (run env .start before) stretch ip).flatten).IsChain
    (· ≠ ·)
  measured : ∀ cycles c rest, stretch = cycles ++ c :: rest →
    ∃ e, find (run env .start (before ++ cycles ++ [c])).entries ip = some e ∧
      e.up = some (c.ping ip)

/-- In the cycle before a stretch no row has the address, the first ping succeeds, and in every
cycle of the stretch the probe of the last row of the address has a direct path. -/
structure Clear (before stretch : List Cycle) (ip : String) : Prop where
  fresh : ∀ c ∈ before.getLast?, lastRow env c ip = none
  up : ∀ c ∈ stretch.head?, c.ping ip = true
  direct : ∀ c ∈ stretch, ∀ d ∈ lastRow env c ip, hasDirectPath c.probes (probeOf d)

end Law

/-! ## Entries as counters -/

theorem newStatus_injective : Function.Injective newStatus := by decide

theorem kindOf_injective : Function.Injective kindOf := by decide

structure Matches (e : Entry) (k : Counter Bool) : Prop where
  up : e.up = some k.last
  count : e.consecutiveCount = some k.count
  told : e.reportedStatus = some (newStatus k.told)

section Counting

variable {e : Entry} {k : Counter Bool}

theorem matches_first (now : ℚ) : Matches (firstEntry true now) ⟨true, 1, true⟩ := ⟨rfl, rfl, rfl⟩

theorem Matches.countWith (h : Matches e k) (up : Bool) : e.countWith up = k.countWith up := by
  rw [Entry.countWith, Counter.countWith, h.up, h.count]
  by_cases heq : k.last = up
  · rw [if_neg (not_not.mpr (congrArg some heq)), if_pos heq]
    rfl
  · rw [if_pos fun h => heq (Option.some.inj h), if_neg heq]

theorem Matches.reported (h : Matches e k) (up : Bool) :
    reported (some e) up = (k.announces up).map newStatus := by
  have hconfirms : e.confirms up = true ↔ k.countWith up = 2 ∧ up ≠ k.told := by
    rw [Entry.confirms, decide_eq_true_eq, h.countWith up, h.told, Ne, Option.some.injEq,
      newStatus_injective.eq_iff, eq_comm (a := k.told)]
  rw [Ping.reported, Counter.announces]
  by_cases hannounced : k.countWith up = 2 ∧ up ≠ k.told
  · rw [if_pos hannounced, if_pos (hconfirms.mpr hannounced)]
    rfl
  · rw [if_neg hannounced, if_neg fun h => hannounced (hconfirms.mp h)]
    rfl

theorem Matches.next (h : Matches e k) (up : Bool) (now : ℚ) :
    Matches (e.next up now) (k.next up) where
  up := rfl
  count := congrArg some (h.countWith up)
  told := by
    have hreported := h.reported up
    rw [Ping.reported] at hreported
    rw [Entry.next, Counter.next]
    cases hannounced : k.announces up with
    | none =>
      rw [hannounced] at hreported
      cases hconfirms : e.confirms up with
      | true => simp [hconfirms] at hreported
      | false => exact h.told
    | some v =>
      rw [hannounced] at hreported
      cases hconfirms : e.confirms up with
      | true => simpa [hconfirms] using hreported
      | false => simp [hconfirms] at hreported

end Counting

/-! ## Stretches of cycles -/

section Stretches

variable {env : Codec} {ip : String}

theorem kind_notice (up : Bool) : (notice ip (newStatus up)).kind = kindOf up := by
  cases up <;> rfl

theorem mem_pingableIps_of_pingable {c : Cycle} {tenant : String} (h : Pingable env c tenant ip)
    (hdirect : ∀ d ∈ lastRow env c ip, hasDirectPath c.probes (probeOf d) = true) :
    ip ∈ pingableIps env c := by
  obtain ⟨d, hd, hcounts, -, hip, -⟩ := h
  have hmem : d ∈ c.devices.filter fun d => c.counts env d && address d = ip :=
    List.mem_filter.mpr ⟨hd, by simp [hcounts, hip]⟩
  obtain ⟨row, hrow⟩ : ∃ row, lastRow env c ip = some row :=
    ⟨_, List.getLast?_eq_some_getLast (List.ne_nil_of_mem hmem)⟩
  exact mem_pingableIps.mpr ⟨row, hrow, hdirect row hrow⟩

variable {stretch : List Cycle}

theorem told_of_matches {s : State} {e : Entry} {k : Counter Bool}
    {last : Bool} {seen : List Bool} (hfind : find s.entries ip = some e) (h : Matches e k)
    (hk : k.Counts last seen) (hpinged : ∀ c ∈ stretch, ip ∈ pingableIps env c) :
    told env s stretch ip =
      (announcements last seen (stretch.map fun c => c.ping ip)).map fun a =>
        (a.map kindOf).toList := by
  induction stretch generalizing s e k last seen with
  | nil => rfl
  | cons c stretch ih =>
    obtain ⟨hentry, hnotices⟩ := runCycle_pinged (hpinged c List.mem_cons_self) s
    rw [hfind] at hentry hnotices
    have hrest := ih hentry (h.next (c.ping ip) c.now) (hk.next (c.ping ip))
      fun c' hc' => hpinged c' (List.mem_cons_of_mem c hc')
    rw [told, hrest, hnotices, h.reported, hk.announces_eq, List.map_cons, announcements,
      List.map_cons]
    cases announcement last seen (c.ping ip) with
    | none => rfl
    | some up => exact congrArg (· :: _) (congrArg (fun kind => [kind]) (kind_notice up))

theorem measured_of_pinged (before : List Cycle)
    (hpinged : ∀ c ∈ stretch, ip ∈ pingableIps env c) (cycles : List Cycle) (c : Cycle)
    (rest : List Cycle) (hsplit : stretch = cycles ++ c :: rest) :
    ∃ e, find (run env .start (before ++ cycles ++ [c])).entries ip = some e ∧
      e.up = some (c.ping ip) := by
  have hin : ip ∈ pingableIps env c :=
    hpinged c (hsplit ▸ List.mem_append_right _ List.mem_cons_self)
  have hentry := (runCycle_pinged hin (run env .start (before ++ cycles))).1
  rw [run, List.foldl_concat]
  refine ⟨_, hentry, ?_⟩
  cases find (run env .start (before ++ cycles)).entries ip with
  | none => rfl
  | some prev => rfl

theorem find_run_of_fresh {before : List Cycle}
    (h : ∀ c ∈ before.getLast?, lastRow env c ip = none) :
    find (run env .start before).entries ip = none := by
  rcases List.eq_nil_or_concat before with rfl | ⟨cycles, c, rfl⟩
  · rfl
  · rw [run, List.concat_eq_append, List.foldl_concat]
    exact find_runCycle_of_lastRow
      (h c (by rw [List.concat_eq_append, List.getLast?_concat]; rfl)) _

theorem told_of_clear {before : List Cycle} (h : Clear env before stretch ip)
    (hpinged : ∀ c ∈ stretch, ip ∈ pingableIps env c) :
    told env (run env .start before) stretch ip = expected stretch ip := by
  have hnone := find_run_of_fresh h.fresh
  cases stretch with
  | nil => rfl
  | cons c stretch =>
    obtain ⟨hentry, hnotices⟩ :=
      runCycle_pinged (hpinged c List.mem_cons_self) (run env .start before)
    have hup : c.ping ip = true := h.up c rfl
    rw [hnone, hup] at hentry hnotices
    have hrest := told_of_matches hentry (matches_first c.now) (Counter.counts_first true true)
      fun c' hc' => hpinged c' (List.mem_cons_of_mem c hc')
    rw [told, hrest, hnotices, expected, List.map_cons, hup]
    rfl

theorem isChain_expected (stretch : List Cycle) (ip : String) :
    ("device.up" :: (expected stretch ip).flatten).IsChain (· ≠ ·) := by
  have hchain := isChain_announcements true [] (stretch.map fun c => c.ping ip)
  have hkinds : (expected stretch ip).flatten =
      ((announcements true [] (stretch.map fun c => c.ping ip)).flatMap Option.toList).map
        kindOf := by
    rw [expected, List.map_flatMap, ← List.flatMap_def]
    exact List.flatMap_congr fun a _ => by cases a <;> rfl
  rw [hkinds]
  exact (List.isChain_map kindOf).mpr
    (hchain.imp fun a b hne heq => hne (kindOf_injective heq))

/-- A device that is pingable over a clear stretch is reported as it should be. -/
theorem reports_of_clear (env : Codec) (before stretch : List Cycle) (tenant ip : String)
    (hpingable : ∀ c ∈ stretch, Pingable env c tenant ip) (hclear : Clear env before stretch ip) :
    Reports env before stretch ip := by
  have hpinged : ∀ c ∈ stretch, ip ∈ pingableIps env c := fun c hc =>
    mem_pingableIps_of_pingable (hpingable c hc) (hclear.direct c hc)
  have htold := told_of_clear hclear hpinged
  exact ⟨htold, htold ▸ isChain_expected stretch ip, measured_of_pinged before hpinged⟩

end Stretches

/-! ## Two organizations with one address -/

def router (ip group probe : String) : Host :=
  ⟨ip, "cisco", "custom", "admin", "", "", group, "", probe, "", "22", "", "", ""⟩

/-- Routers without a map of transports. -/
def legacyCodec : Codec where
  python := ⟨fun _ => "", fun _ => none⟩
  loads := fun _ => none
  dumps := fun _ => ""
  encrypt := id

/-- A cycle over an inventory, with a bastion in front of the site `depot`. -/
def cycleOf (devices : List Host) (up : Bool) : Cycle where
  devices := devices
  probes := [("depot", { id := "depot", name := "Depot", mode := .jump, tokenHash := none,
                         created := 0 })]
  pingEnabled := fun _ => none
  ping := fun _ => up
  now := 0

/-- Two customers whose routers have the same address. -/
def sameAddress (probe : String) : List Host :=
  [router "10.0.0.1" "acme" "central", router "10.0.0.1" "beta" probe]

/-- Both routers are pinged: up, down twice, up twice. -/
def outage : List Cycle :=
  [true, false, false, true, true].map (cycleOf (sameAddress "central"))

theorem pingable_sameAddress (probe : String) (up : Bool) :
    Pingable legacyCodec (cycleOf (sameAddress probe) up) "acme" "10.0.0.1" := by
  have hcounts : (cycleOf [] true).counts legacyCodec (router "10.0.0.1" "acme" "central") = true :=
    by decide
  have hdirect : hasDirectPath (cycleOf [] true).probes
      (probeOf (router "10.0.0.1" "acme" "central")) = true := by
    decide
  exact ⟨_, List.mem_cons_self .., hcounts, rfl, by decide, hdirect⟩

theorem reports_of_clear_outage :
    Reports legacyCodec [cycleOf [router "10.0.0.2" "acme" "central"] true] outage "10.0.0.1" := by
  refine reports_of_clear legacyCodec [cycleOf [router "10.0.0.2" "acme" "central"] true] outage
    "acme" "10.0.0.1" ?_ ⟨?_, ?_, ?_⟩
  · intro c hc
    obtain ⟨up, -, rfl⟩ := List.mem_map.mp hc
    exact pingable_sameAddress "central" up
  · rintro c ⟨⟩
    decide
  · rintro c ⟨⟩
    rfl
  · intro c hc d hd
    obtain ⟨up, -, rfl⟩ := List.mem_map.mp hc
    have hrow : lastRow legacyCodec (cycleOf (sameAddress "central") up) "10.0.0.1" =
        some (router "10.0.0.1" "beta" "central") := by
      cases up <;> decide
    rw [hrow] at hd
    cases hd
    have hdirect : hasDirectPath (cycleOf [] true).probes
        (probeOf (router "10.0.0.1" "beta" "central")) = true := by
      decide
    exact hdirect

/-- The router of one customer is not pinged because the one of the other is behind a bastion. -/
theorem unmeasured_behind_other_bastion :
    ¬ ∀ (env : Codec) (before stretch : List Cycle) (tenant ip : String),
      (∀ c ∈ stretch, Pingable env c tenant ip) →
      (∀ c ∈ before.getLast?, ¬ Pingable env c tenant ip) → Reports env before stretch ip := by
  intro hall
  have hreports := hall legacyCodec [] [cycleOf (sameAddress "depot") true] "acme" "10.0.0.1"
    (fun c hc => List.mem_singleton.mp hc ▸ pingable_sameAddress "depot" true)
    (fun c hc => nomatch hc)
  obtain ⟨e, he, hup⟩ := hreports.measured [] (cycleOf (sameAddress "depot") true) [] rfl
  have hmeasured : (find (run legacyCodec .start
      ([] ++ [] ++ [cycleOf (sameAddress "depot") true])).entries "10.0.0.1").bind Entry.up =
      some true := by
    rw [he]
    exact hup
  exact absurd hmeasured (by decide)

end SentinelNet.Ping
