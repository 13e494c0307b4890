import SentinelNet.Observability.Window
import SentinelNet.Lib.Grouping

/-!
# The correlation rules

The rules of `observability/rules.py`, in the order of its table `RULES`.

* `blockedTraffic` … `interfaceRecovered`: the rules.
* `Rule`, `rules`: the table.
-/

namespace SentinelNet.Observability

open Grouping PyDict PyText

section Checks

variable (py : Python)

/-! ## Logs and changes -/

/-- Neither column is empty. -/
def EventRow.hasEndpoints (ev : EventRow) : Bool :=
  (nonempty ev.srcIp).isSome && (nonempty ev.dstIp).isSome

def blockAction (ev : EventRow) : Bool :=
  let action := lowerText (pyStr py ((ev.attr "action").or (.str "")))
  action = "" || action ∈ ["deny", "drop", "block", "close", "reject", "reset"]

/-- Two values that are both known are the same text. -/
def agree (v w : Json) : Bool := v.isNull || w.isNull || pyStr py v = pyStr py w

/-- A flow of the same ends at the time of the log. -/
def corroborates (p : Params) (ev f : EventRow) : Bool :=
  f.tenant = ev.tenant && (f.srcIp = ev.srcIp && f.dstIp = ev.dstIp) &&
    |f.ts - ev.ts| ≤ intParam p "match_delta_s" + 60 &&
    agree py ((ev.attr "proto").or (ev.attr "protocol")) (f.attr "protocol") &&
    agree py ((ev.attr "dst_port").or (ev.attr "dport")) (f.attr "dst_port")

def flowRows (events : List EventRow) : List EventRow :=
  events.filter fun e => e.eventType = "flow.aggregate"

def ipEntity (ip : Option String) : String := "ip:" ++ columnStr ip

/-- A block that a flow corroborates. -/
def blockedFindings (ev f : EventRow) : List Finding :=
  [{ eventId := ev.id, ts := ev.ts, tenant := ev.tenant, role := .trigger
     entityKey := ipEntity ev.srcIp, severity := ev.severity
     srcIp := ev.srcIp, dstIp := ev.dstIp
     summary := "Traffico bloccato " ++ describe py ev.srcIp ++ " → " ++ describe py ev.dstIp
     attrs := [("action", ev.attr "action")] },
   { eventId := f.id, ts := f.ts, tenant := f.tenant, role := .supporting
     entityKey := ipEntity ev.srcIp
     srcIp := f.srcIp, dstIp := f.dstIp
     summary := "Flusso corrispondente " ++ describe py f.srcIp ++ " → " ++ describe py f.dstIp
     attrs := [("metrics", .obj f.metrics)] }]

def blockedTraffic (p : Params) (events : List EventRow) : List Finding :=
  events.flatMap fun ev =>
    if ev.eventType = "log.security" ∧ ev.hasEndpoints = true ∧ blockAction py ev = true then
      match (flowRows events).find? (corroborates py p ev) with
      | some f => blockedFindings py ev f
      | none => []
    else []

def logFinding (ev : EventRow) : Finding where
  eventId := ev.id
  ts := ev.ts
  tenant := ev.tenant
  role := .trigger
  entityKey := if (nonempty ev.srcIp).isSome then ipEntity ev.srcIp else ipEntity ev.deviceIp
  severity := ev.severity
  srcIp := ev.srcIp
  dstIp := ev.dstIp
  summary := String.ofList
    ((((ev.attr "message").or (.str "Evento critico")).text?.getD "").toList.take 200)
  attrs := [("action", ev.attr "action")]

def highSeverityLog (p : Params) (events : List EventRow) : List Finding :=
  events.flatMap fun ev =>
    match ev.severity with
    | some severity =>
      if startsWith ev.eventType "log." = true ∧ severity ≤ intParam p "max_severity" then
        [logFinding ev]
      else []
    | none => []

/-- `s.rsplit(".", 1)[-1]`. -/
def lastSegment (s : String) : String :=
  String.ofList ((s.toList.splitOn '.').getLast?.getD [])

def changeFinding (ev : EventRow) : Finding where
  eventId := ev.id
  ts := ev.ts
  tenant := ev.tenant
  role := .trigger
  entityKey := ipEntity ev.deviceIp
  severity := ev.severity
  interface := ev.interface
  summary := "Modifica su " ++ (match nonempty ev.interface with
      | some name => name
      | none => columnStr ev.deviceIp) ++ ": " ++ pyStr py (ev.attr "field") ++ " " ++
    pyStr py (ev.attr "before") ++ " → " ++ pyStr py (ev.attr "after")
  attrs := ev.attrs

def configChange (_ : Params) (events : List EventRow) : List Finding :=
  events.flatMap fun ev =>
    if ev.eventType ∈ ["device.change", "interface.change"] ∧
        lowerText (lastSegment (ev.field py)) ≠ "link" then
      [changeFinding py ev]
    else []

/-! ## Interfaces -/

def linkUp : List String := ["up", "1", "true"]

def linkDown : List String := ["down", "0", "false", "lowerlayerdown", "notpresent"]

def adminDown : List String := ["down", "0", "false", "admin_down", "administratively down"]

def isLinkChange (ev : EventRow) : Bool :=
  ev.eventType = "interface.change" &&
    (contains (lowerText (ev.field py)) "link" || contains (lowerText (ev.field py)) "status")

def afterText (ev : EventRow) : String := lowerText (pyStr py (ev.attr "after"))

/-- A link that goes down without a decision that it should. -/
def isDrop (ev : EventRow) : Bool :=
  isLinkChange py ev && afterText py ev ∈ linkDown &&
    lowerText (pyStr py ((ev.attr "admin_status").or (.str ""))) ∉ adminDown

/-- A link that comes back. -/
def isRecovery (ev : EventRow) : Bool := isLinkChange py ev && afterText py ev ∈ linkUp

/-- The finding for a link that goes down. -/
def dropFinding (ev : EventRow) : Finding where
  eventId := ev.id
  ts := ev.ts
  tenant := ev.tenant
  role := .symptom
  entityKey := ipEntity ev.deviceIp
  severity := ev.severity
  interface := ev.interface
  summary := "Interfaccia " ++ columnStr ev.interface ++ " passata a down"
  attrs := ev.attrs

def interfaceDown (_ : Params) (events : List EventRow) : List Finding :=
  events.flatMap fun ev => if isDrop py ev then [dropFinding ev] else []

/-- The retraction for a link that comes back. -/
def recoveryOf (p : Params) (ev : EventRow) : Retraction where
  targetRuleId := "IFACE_DOWN_001"
  entityKey := ipEntity ev.deviceIp
  tenant := ev.tenant
  reason := "Interfaccia " ++ columnStr ev.interface ++ " tornata su"
  witness :=
    { eventId := ev.id
      ts := ev.ts
      tenant := ev.tenant
      role := .consequence
      entityKey := ipEntity ev.deviceIp
      interface := ev.interface
      summary := "Interfaccia " ++ columnStr ev.interface ++ " tornata su"
      attrs := ev.attrs }
  windowS := intParam p "window_s"

def interfaceRecovered (p : Params) (events : List EventRow) : List Retraction :=
  events.flatMap fun ev => if isRecovery py ev then [recoveryOf p ev] else []

def minutesOf (span : ℤ) : ℤ := max (span / 60) 1

/-- A port: its tenant, its device and its name. -/
abbrev Port := String × Option String × Option String

def portOf (ev : EventRow) : Port := (ev.tenant, ev.deviceIp, ev.interface)

def flapping (p : Params) (port : Port) (seen : List EventRow) : List Finding :=
  if (seen.length : ℤ) < intParam p "min_transitions" then []
  else
    match seen.getLast? with
    | none => []
    | some last =>
      let recent := seen.filter fun e => last.ts - e.ts ≤ 3600
      match recent.head?, recent.getLast? with
      | some first, some last =>
        if (recent.length : ℤ) < intParam p "min_transitions" then []
        else
          [{ eventId := last.id, ts := last.ts, tenant := port.1, role := .trigger
             entityKey := ipEntity port.2.1, severity := some 3
             key := some ("flap:" ++ columnStr port.2.2), interface := port.2.2
             summary := "Interfaccia " ++ columnStr port.2.2 ++ " instabile: " ++
               str recent.length ++ " transizioni in " ++
               intStr (minutesOf (last.ts - first.ts)) ++ " minuti"
             attrs := [("interface", .str (columnStr port.2.2)),
               ("transitions", .int recent.length), ("span_s", .int (last.ts - first.ts))] }]
      | _, _ => []

def interfaceFlapping (p : Params) (events : List EventRow) : List Finding :=
  (groupOn portOf (events.filter fun ev =>
    isLinkChange py ev && (nonempty ev.interface).isSome)).flatMap fun g => flapping p g.1 g.2

/-- The errors of a sample, if it has a counter. -/
def errorTotal (ev : EventRow) : Option ℤ :=
  match ["in_errors", "out_errors"].filterMap (fun k =>
    match ev.metric k with
    | .int n => some n
    | .float q => some (truncate q)
    | _ => none) with
  | [] => none
  | counts => some counts.sum

def errorSample (ev : EventRow) : List (EventRow × ℤ) :=
  if ev.eventType = "interface.state" ∧ (nonempty ev.interface).isSome = true then
    match errorTotal ev with
    | some total => [(ev, total)]
    | none => []
  else []

def risingErrors (p : Params) (port : Port) (samples : List (EventRow × ℤ)) : List Finding :=
  match samples.head?, samples.getLast? with
  | some first, some last =>
    if samples.length < 2 ∨ last.2 - first.2 < intParam p "min_errors" then []
    else
      [{ eventId := last.1.id, ts := last.1.ts, tenant := port.1, role := .trigger
         entityKey := ipEntity port.2.1, severity := some 4
         key := some ("errors:" ++ columnStr port.2.2), interface := port.2.2
         summary := "Interfaccia " ++ columnStr port.2.2 ++ ": " ++ intStr (last.2 - first.2) ++
           " errori in " ++ intStr (minutesOf (last.1.ts - first.1.ts)) ++ " minuti"
         attrs := [("interface", .str (columnStr port.2.2)),
           ("errors_delta", .int (last.2 - first.2)),
           ("span_s", .int (last.1.ts - first.1.ts)),
           ("threshold", .int (intParam p "min_errors"))] }]
  | _, _ => []

def interfaceErrors (p : Params) (events : List EventRow) : List Finding :=
  (groupOn (fun s : EventRow × ℤ => portOf s.1) (events.flatMap errorSample)).flatMap
    fun g => risingErrors p g.1 g.2

/-! ## Devices -/

/-- The order of `sort(key=lambda e: (e["ts"], e["id"]))`. -/
def timeLe (e e' : EventRow) : Prop := e.ts < e'.ts ∨ (e.ts = e'.ts ∧ e.id ≤ e'.id)

instance : DecidableRel timeLe := fun e e' =>
  inferInstanceAs (Decidable (e.ts < e'.ts ∨ (e.ts = e'.ts ∧ e.id ≤ e'.id)))

def EventRow.answered (ev : EventRow) : Bool := ev.eventType = "device.state"

/-- The finding for the polling rounds of a device. -/
def silentDevice (p : Params) (device : String × Option String) (seen : List EventRow) :
    List Finding :=
  let rounds := (seen.insertionSort timeLe).reverse
  let silentAfter := ((rounds.takeWhile fun e => !e.answered).filter fun e =>
    e.eventType = "device.unreachable").reverse
  match rounds.find? EventRow.answered, silentAfter.getLast? with
  | some lastOk, some last =>
    if (silentAfter.length : ℤ) < intParam p "min_silent_rounds" then []
    else
      [{ eventId := last.id, ts := last.ts, tenant := device.1, role := .trigger
         entityKey := ipEntity device.2, severity := some 2, key := some "unreachable"
         summary := columnStr device.2 ++ " non risponde da " ++ str silentAfter.length ++
           " giri di polling consecutivi"
         attrs := [("silent_rounds", .int silentAfter.length),
           ("last_answer_ts", .int lastOk.ts),
           ("threshold", .int (intParam p "min_silent_rounds"))] }]
  | _, _ => []

def deviceUnreachable (p : Params) (events : List EventRow) : List Finding :=
  (groupOn (fun ev : EventRow => (ev.tenant, ev.deviceIp)) (events.filter fun ev =>
    (ev.eventType = "device.state" || ev.eventType = "device.unreachable") &&
      (nonempty ev.deviceIp).isSome)).flatMap fun g => silentDevice p g.1 g.2

/-- The finding for a measure of a device. -/
def loadFinding (ev : EventRow) (field label : String) (limit : ℤ) : List Finding :=
  if (ev.metric field).isNull = true ∨ (ev.metric field).value < limit then []
  else
    [{ eventId := ev.id, ts := ev.ts, tenant := ev.tenant, role := .symptom
       entityKey := ipEntity ev.deviceIp, severity := some 4
       summary := label ++ " al " ++ pyStr py (ev.metric field) ++ "% su " ++
         columnStr ev.deviceIp ++ " (soglia " ++ intStr limit ++ "%)"
       key := some field
       attrs := [("metric", .str field), ("value", ev.metric field), ("threshold", .int limit)] }]

def deviceLoad (p : Params) (events : List EventRow) : List Finding :=
  events.flatMap fun ev =>
    if ev.eventType = "device.state" then
      loadFinding py ev "cpu_pct" "CPU" (intParam p "max_cpu_pct") ++
        loadFinding py ev "memory_pct" "Memoria" (intParam p "max_memory_pct") ++
        loadFinding py ev "disk_pct" "Disco" (intParam p "max_disk_pct")
    else []

/-! ## Blocked destinations -/

/-- A destination: its tenant, its address and its port, which may be empty. -/
abbrev Destination := String × String × String

/-- The destination port of the event of a finding, `by_id.get(f.event_id)`. -/
def destinationPort (events : List EventRow) (f : Finding) : String :=
  match events.reverse.find? fun e => e.id = f.eventId with
  | none => ""
  | some ev =>
    match ((ev.attr "dst_port").or (ev.attr "dport")).or
      (match ev.dstPort with
        | some port => .int port
        | none => .null) with
    | .null => ""
    | v => pyStr py v

def blockedClients (events : List EventRow) (f : Finding) : List (Finding × Destination × String) :=
  match nonempty f.dstIp, nonempty f.srcIp with
  | some dst, some src =>
    if f.role = .trigger then [(f, (f.tenant, dst, destinationPort py events f), src)] else []
  | _, _ => []

/-- The last finding of a group, in time. -/
def latest (f : Finding) (fs : List Finding) : Finding :=
  fs.foldl (fun last f => if last.ts ≤ f.ts then f else last) f

/-- The finding for the clients of a destination. -/
def blockedTarget (p : Params) (target : Destination)
    (clients : List (Finding × Destination × String)) : List Finding :=
  let sources := (clients.map fun c => c.2.2).dedup
  match clients with
  | [] => []
  | first :: _ =>
    if (sources.length : ℤ) < intParam p "min_sources" then []
    else
      let last := latest first.1 (clients.map Prod.fst)
      let (tenant, dst, port) := target
      [{ eventId := last.eventId, ts := last.ts, tenant := tenant, role := .trigger
         entityKey := "dst:" ++ (if port = "" then dst else dst ++ ":" ++ port)
         severity := some 3, dstIp := some dst
         summary := str sources.length ++ " client bloccati verso " ++ describe py (some dst) ++
           (if port = "" then "" else " porta " ++ port)
         attrs := [("sources", .int sources.length),
           ("sample", .arr (((sources.insertionSort (· ≤ ·)).take 10).map Json.str)),
           ("dst_port", if port = "" then .null else .str port),
           ("threshold", .int (intParam p "min_sources"))] }]

/-- `_blast_radius`, given the thresholds of `BLOCKED_TRAFFIC_001`. -/
def blastRadius (blocked p : Params) (events : List EventRow) : List Finding :=
  (groupOn (fun c : Finding × Destination × String => c.2.1)
    ((blockedTraffic py blocked events).flatMap (blockedClients py events))).flatMap
      fun g => blockedTarget py p g.1 g.2

/-! ## Volumes -/

def EventRow.bytes (f : EventRow) : Json := (f.metric "bytes").or (.int 0)

def comparedFlows (p : Params) (events : List EventRow) : List EventRow :=
  if intParam p "include_control_plane" = 0 then
    (flowRows events).filter fun f => trafficDirection py f.srcIp f.dstIp ≠ some .controlPlane
  else flowRows events

/-- The median of the volumes: the middle one, or the upper of the two. -/
def medianBytes (flows : List EventRow) : Option Json :=
  ((flows.map EventRow.bytes).insertionSort fun v w => v.value ≤ w.value)[flows.length / 2]?

/-- What a flow is compared with: nothing where there are too few flows or nothing flows. -/
def reference (p : Params) (events : List EventRow) : Option Json :=
  let flows := comparedFlows py p events
  if (flows.length : ℤ) < intParam p "min_flows" then none
  else (medianBytes flows).filter fun mid => 0 < mid.value

/-- A volume far above a median. -/
def isSpike (p : Params) (mid : Json) (f : EventRow) : Bool :=
  match mid.times (intParam p "spike_ratio") with
  | some limit => limit ≤ f.bytes.value
  | none => false

def spikeFinding (mid : Json) (f : EventRow) : Finding where
  eventId := f.id
  ts := f.ts
  tenant := f.tenant
  role := .supporting
  entityKey := ipEntity f.srcIp
  srcIp := f.srcIp
  dstIp := f.dstIp
  summary := "Volume anomalo " ++ describe py f.srcIp ++ " → " ++ describe py f.dstIp ++ ": " ++
    pyStr py f.bytes ++ " byte contro una mediana di " ++ pyStr py mid
  attrs := [("bytes", f.bytes), ("median_bytes", mid),
    ("direction", match trafficDirection py f.srcIp f.dstIp with
      | some d => .str d.word
      | none => .null)]

def trafficVolumeSpike (p : Params) (events : List EventRow) : List Finding :=
  match reference py p events with
  | none => []
  | some mid => (comparedFlows py p events).flatMap fun f =>
      if isSpike p mid f then [spikeFinding py mid f] else []

/-! ## Statistics -/

/-- `(m.get(k) or 0)`. -/
def EventRow.measure (ev : EventRow) (k : String) : Json := (ev.metric k).or (.int 0)

def deviationFinding (ev : EventRow) : Finding where
  eventId := ev.id
  ts := ev.ts
  tenant := ev.tenant
  role := .trigger
  entityKey := ipEntity ev.srcIp
  severity := some 4
  srcIp := ev.srcIp
  summary := describe py ev.srcIp ++ ": traffico " ++ signed0 (ev.metric "deviation_pct").value ++
    "% rispetto all'abitudine (" ++ pyStr py (ev.metric "observed") ++ " byte contro " ++
    pyStr py (ev.metric "expected") ++ " attesi, baseline " ++
    pyStr py ((get? ev.attrs "quality_label").getD (.str "?")) ++ ")"
  attrs := assign ev.attrs ev.metrics

def baselineSpike (p : Params) (events : List EventRow) : List Finding :=
  events.flatMap fun ev =>
    if ev.eventType = "flow.baseline" ∧
        numberParam p "min_quality" ≤ (ev.measure "quality").value ∧
        (ev.metric "deviation_pct").isNull = false ∧
        numberParam p "min_deviation_pct" ≤ (ev.metric "deviation_pct").value then
      [deviationFinding py ev]
    else []

/-- The finding for a new host. -/
def emergenceFinding (ev : EventRow) : Finding where
  eventId := ev.id
  ts := ev.ts
  tenant := ev.tenant
  role := .trigger
  entityKey := ipEntity ev.srcIp
  severity := some 5
  srcIp := ev.srcIp
  summary := describe py ev.srcIp ++ ": host mai osservato prima, " ++
    pyStr py (ev.measure "observed") ++ " byte trasmessi"
  attrs := assign ev.attrs ev.metrics

def newTalker (p : Params) (events : List EventRow) : List Finding :=
  events.flatMap fun ev =>
    if ev.eventType = "flow.emergence" ∧ (nonempty ev.srcIp).isSome = true ∧
        trafficDirection py ev.srcIp ev.srcIp ≠ some .controlPlane ∧
        ((nonempty (ev.attr "dst_ip").text?).isSome = true →
          trafficDirection py ev.srcIp (ev.attr "dst_ip").text? ≠ some .controlPlane) ∧
        numberParam p "min_bytes" ≤ (ev.measure "observed").value then
      [emergenceFinding py ev]
    else []

def exporterFinding (ev : EventRow) : Finding where
  eventId := ev.id
  ts := ev.ts
  tenant := ev.tenant
  role := .trigger
  entityKey := "exporter:" ++ ev.entityId
  severity := ev.severity
  srcIp := ev.srcIp
  summary := "Exporter " ++ describe py (some ev.entityId) ++ " fuori inventario da " ++
    pyStr py (ev.measure "persisted_s").minutes ++ " minuti: " ++
    pyStr py (ev.measure "packets") ++ " pacchetti scartati"
  attrs := assign ev.attrs ev.metrics

def unknownExporter (p : Params) (events : List EventRow) : List Finding :=
  events.flatMap fun ev =>
    if ev.eventType = "platform.exporter_unknown" ∧
        numberParam p "min_persistence_s" ≤ (ev.measure "persisted_s").value ∧
        numberParam p "min_packets" ≤ (ev.measure "packets").value then
      [exporterFinding py ev]
    else []

def shareFinding (ev : EventRow) : Finding where
  eventId := ev.id
  ts := ev.ts
  tenant := ev.tenant
  role := .supporting
  entityKey := ipEntity ev.srcIp
  srcIp := ev.srcIp
  summary := describe py ev.srcIp ++ " rappresenta il " ++
    fixed0 (ev.metric "share_pct").value ++ "% del traffico osservato dell'ora (" ++
    pyStr py (ev.metric "observed") ++ " byte su " ++ pyStr py (ev.metric "total") ++ ")"
  attrs := assign ev.attrs ev.metrics

def topTalker (p : Params) (events : List EventRow) : List Finding :=
  events.flatMap fun ev =>
    if ev.eventType = "flow.top_talker" ∧ (ev.metric "share_pct").isNull = false ∧
        numberParam p "min_share_pct" ≤ (ev.metric "share_pct").value ∧
        numberParam p "min_bytes" ≤ (ev.measure "observed").value then
      [shareFinding py ev]
    else []

/-- The retraction for a deviation within the norm. -/
def normalRetraction (p : Params) (ev : EventRow) : Retraction where
  targetRuleId := "TRAFFIC_SPIKE_001"
  entityKey := ipEntity ev.srcIp
  tenant := ev.tenant
  reason := "Il confronto con lo storico colloca il volume nella norma (" ++
    signed0 (ev.metric "deviation_pct").value ++ "% sull'atteso)"
  witness :=
    { eventId := ev.id
      ts := ev.ts
      tenant := ev.tenant
      role := .supporting
      entityKey := ipEntity ev.srcIp
      srcIp := ev.srcIp
      summary := describe py ev.srcIp ++ ": volume nella norma storica (" ++
        signed0 (ev.metric "deviation_pct").value ++ "% sull'atteso)"
      attrs := ev.metrics }
  windowS := intParam p "window_s"

def baselineNormalRetractsSpike (p : Params) (events : List EventRow) : List Retraction :=
  events.flatMap fun ev =>
    if ev.eventType = "flow.baseline" ∧
        numberParam p "min_quality" ≤ (ev.measure "quality").value ∧
        (ev.metric "deviation_pct").isNull = false ∧
        |(ev.metric "deviation_pct").value| ≤ numberParam p "normal_band_pct" then
      [normalRetraction py p ev]
    else []

/-! ## The table -/

/-- What a rule may declare as an output. -/
inductive Output where
  | role (role : Role)
  | retraction
  deriving DecidableEq

/-- What the table says of a rule. -/
structure RuleSpec where
  id : String
  version : String := "1.0.0"
  outputs : List Output
  parameters : List ParamSpec := []
  baseConfidence : ℤ

def blockedTrafficSpec : RuleSpec where
  id := "BLOCKED_TRAFFIC_001"
  outputs := [.role .trigger, .role .supporting]
  parameters := [⟨"match_delta_s", .int 120, 0, 3600⟩]
  baseConfidence := 65

def highSeverityLogSpec : RuleSpec where
  id := "HIGH_SEVERITY_LOG_001"
  outputs := [.role .trigger]
  parameters := [⟨"max_severity", .int 3, 0, 7⟩]
  baseConfidence := 45

/-- `CFG_CHANGE_001`. -/
def configChangeSpec : RuleSpec where
  id := "CFG_CHANGE_001"
  outputs := [.role .trigger]
  baseConfidence := 55

/-- `IFACE_DOWN_001`. -/
def interfaceDownSpec : RuleSpec where
  id := "IFACE_DOWN_001"
  outputs := [.role .symptom]
  baseConfidence := 60

/-- `IFACE_RECOVERED_001`. -/
def interfaceRecoveredSpec : RuleSpec where
  id := "IFACE_RECOVERED_001"
  outputs := [.role .consequence, .retraction]
  parameters := [⟨"window_s", .int 3600, 60, 86400⟩]
  baseConfidence := 0

/-- `BASELINE_SPIKE_001`; the default 0.3 is the double nearest to it. -/
def baselineSpikeSpec : RuleSpec where
  id := "BASELINE_SPIKE_001"
  outputs := [.role .trigger]
  parameters := [⟨"min_deviation_pct", .int 200, 20, 10000⟩,
    ⟨"min_quality", .float (5404319552844595 / 18014398509481984), 0, 1⟩]
  baseConfidence := 55

def newTalkerSpec : RuleSpec where
  id := "NEW_TALKER_001"
  outputs := [.role .trigger]
  parameters := [⟨"min_bytes", .int 10000, 0, 1000000000000⟩]
  baseConfidence := 40

def unknownExporterSpec : RuleSpec where
  id := "FLOW_EXPORTER_UNKNOWN_001"
  outputs := [.role .trigger]
  parameters := [⟨"min_persistence_s", .int 3600, 0, 604800⟩,
    ⟨"min_packets", .int 50, 1, 1000000000⟩]
  baseConfidence := 90

def topTalkerSpec : RuleSpec where
  id := "TOP_TALKER_001"
  outputs := [.role .supporting]
  parameters := [⟨"min_share_pct", .int 50, 5, 100⟩,
    ⟨"min_bytes", .int 10000000, 0, 1000000000000000⟩]
  baseConfidence := 45

def baselineNormalSpec : RuleSpec where
  id := "BASELINE_NORMAL_RETRACT_001"
  outputs := [.role .supporting, .retraction]
  parameters := [⟨"normal_band_pct", .int 50, 5, 500⟩, ⟨"min_quality", .float (1 / 2), 0, 1⟩,
    ⟨"window_s", .int 7200, 60, 86400⟩]
  baseConfidence := 0

/-- `IFACE_FLAPPING_001`. -/
def interfaceFlappingSpec : RuleSpec where
  id := "IFACE_FLAPPING_001"
  outputs := [.role .trigger]
  parameters := [⟨"min_transitions", .int 4, 2, 100⟩]
  baseConfidence := 70

def blastRadiusSpec : RuleSpec where
  id := "BLAST_RADIUS_001"
  outputs := [.role .trigger]
  parameters := [⟨"min_sources", .int 3, 2, 1000⟩]
  baseConfidence := 70

def deviceUnreachableSpec : RuleSpec where
  id := "DEVICE_UNREACHABLE_001"
  outputs := [.role .trigger]
  parameters := [⟨"min_silent_rounds", .int 3, 1, 100⟩]
  baseConfidence := 75

/-- `IFACE_ERRORS_001`. -/
def interfaceErrorsSpec : RuleSpec where
  id := "IFACE_ERRORS_001"
  outputs := [.role .trigger]
  parameters := [⟨"min_errors", .int 100, 1, 1000000⟩]
  baseConfidence := 60

def deviceLoadSpec : RuleSpec where
  id := "DEVICE_LOAD_001"
  outputs := [.role .symptom]
  parameters := [⟨"max_cpu_pct", .int 85, 1, 100⟩, ⟨"max_memory_pct", .int 90, 1, 100⟩,
    ⟨"max_disk_pct", .int 90, 1, 100⟩]
  baseConfidence := 50

def trafficSpikeSpec : RuleSpec where
  id := "TRAFFIC_SPIKE_001"
  outputs := [.role .supporting]
  parameters := [⟨"min_flows", .int 5, 2, 1000⟩, ⟨"spike_ratio", .int 10, 2, 1000⟩,
    ⟨"include_control_plane", .int 0, 0, 1⟩]
  baseConfidence := 50

def RuleSpec.params (spec : RuleSpec) (settings : RuleSettings) : Params :=
  paramsFor settings spec.id spec.parameters

structure Rule extends RuleSpec where
  check : RuleSettings → Params → List EventRow → List Item

def concluding (spec : RuleSpec) (check : Params → List EventRow → List Finding) : Rule :=
  ⟨spec, fun _ p events => (check p events).map Item.finding⟩

def retracting (spec : RuleSpec) (check : Params → List EventRow → List Retraction) : Rule :=
  ⟨spec, fun _ p events => (check p events).map Item.retraction⟩

def rules : List Rule :=
  [concluding blockedTrafficSpec (blockedTraffic py),
    concluding highSeverityLogSpec highSeverityLog,
    concluding configChangeSpec (configChange py),
    concluding interfaceDownSpec (interfaceDown py),
    retracting interfaceRecoveredSpec (interfaceRecovered py),
    concluding baselineSpikeSpec (baselineSpike py),
    concluding newTalkerSpec (newTalker py),
    concluding unknownExporterSpec (unknownExporter py),
    concluding topTalkerSpec (topTalker py),
    retracting baselineNormalSpec (baselineNormalRetractsSpike py),
    concluding interfaceFlappingSpec (interfaceFlapping py),
    ⟨blastRadiusSpec, fun settings p events =>
      (blastRadius py (blockedTrafficSpec.params settings) p events).map Item.finding⟩,
    concluding deviceUnreachableSpec deviceUnreachable,
    concluding interfaceErrorsSpec interfaceErrors,
    concluding deviceLoadSpec (deviceLoad py),
    concluding trafficSpikeSpec (trafficVolumeSpike py)]

/-- What the table says of all the rules. -/
def catalog : List RuleSpec :=
  [blockedTrafficSpec, highSeverityLogSpec, configChangeSpec, interfaceDownSpec,
    interfaceRecoveredSpec, baselineSpikeSpec, newTalkerSpec, unknownExporterSpec, topTalkerSpec,
    baselineNormalSpec, interfaceFlappingSpec, blastRadiusSpec, deviceUnreachableSpec,
    interfaceErrorsSpec, deviceLoadSpec, trafficSpikeSpec]

/-- A conclusion with its provenance. -/
structure Produced where
  ruleId : String
  version : String
  params : Params
  item : Item

def Rule.produce (settings : RuleSettings) (events : List EventRow) (rule : Rule) :
    List Produced :=
  (rule.check settings (rule.params settings) events).map fun item =>
    ⟨rule.id, rule.version, rule.params settings, item⟩

/-- `evaluate`.  On rows of a window no rule raises. -/
def evaluate (settings : RuleSettings) (only : Option (List String)) (events : List EventRow) :
    List Produced :=
  ((rules py).filter fun rule => only.all fun ids => rule.id ∈ ids).flatMap
    (Rule.produce settings events)

end Checks

def declaresOutput (ruleId : String) (output : Output) : Bool :=
  match catalog.find? fun spec => spec.id = ruleId with
  | some spec => output ∈ spec.outputs
  | none => false

def baseConfidence (ruleId : String) : ℤ :=
  match catalog.find? fun spec => spec.id = ruleId with
  | some spec => spec.baseConfidence
  | none => 40

theorem catalog_ids_nodup : (catalog.map RuleSpec.id).Nodup := by decide

theorem defaults_mem_range : ∀ spec ∈ catalog, ∀ param ∈ spec.parameters,
    param.minimum ≤ param.default.value ∧ param.default.value ≤ param.maximum := by
  decide +kernel

end SentinelNet.Observability
