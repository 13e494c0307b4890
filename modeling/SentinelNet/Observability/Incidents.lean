import SentinelNet.Observability.Correlator
import SentinelNet.Observability.JsonEq

/-!
# Incidents

`observability/incidents.py` groups the evidence into incidents and deduces their causes.

* `reason`: the conclusion about an incident.
* `closeStale`: quiet incidents are closed.
-/

namespace SentinelNet.Observability

open Grouping PyDict PyText

def gapS : ℤ := 900

def quietS : ℤ := 1800

def evidenceLookbackS : ℤ := 3600

def confidenceStep : ℤ := 8

def confidenceMax : ℤ := 95

/-! ## Tables -/

/-- A row of `incidents`; the text of the reasoning is kept as its value. -/
structure Incident where
  id : ℕ
  tenant : String
  entityKey : String
  openedTs : ℤ
  lastEventTs : ℤ
  closedTs : Option ℤ := none
  title : String
  severity : ℤ
  eventCount : ℕ
  causeKind : Option String := none
  confidence : Option ℤ := none
  reasoning : Option Json := none

/-- A row of `incident_conclusions`. -/
structure Conclusion where
  id : ℕ
  incidentId : ℕ
  concludedTs : ℤ
  causeKind : String
  confidence : ℤ
  reasoning : Json
  supersededTs : Option ℤ := none

/-- The tables; `reasoned` is none of them, it says which incidents have been reasoned about. -/
structure IncidentStore where
  evidence : List Evidence
  incidents : List Incident
  conclusions : List Conclusion
  reasoned : List ℕ

/-- Nothing has happened yet. -/
def IncidentStore.empty : IncidentStore := ⟨[], [], [], []⟩

/-! ## Assignment -/

def entityLabel (entityKey : String) : String :=
  if ':' ∈ entityKey.toList then
    String.ofList ((entityKey.toList.dropWhile fun c => c ≠ ':').drop 1)
  else entityKey

/-- The order `ts ASC, id ASC`. -/
def evidenceLe (e e' : Evidence) : Prop :=
  e.finding.ts < e'.finding.ts ∨ (e.finding.ts = e'.finding.ts ∧ e.id ≤ e'.id)

instance : DecidableRel evidenceLe := fun e e' => inferInstanceAs (Decidable (_ ∨ _))

/-- The rows of `_UNASSIGNED_SQL`. -/
def unassigned (now : ℤ) (evidence : List Evidence) : List Evidence :=
  (evidence.filter fun e =>
    e.incidentId.isNone && e.active && now - evidenceLookbackS ≤ e.createdTs).insertionSort
      evidenceLe

/-- The order `opened_ts ASC, id ASC`. -/
def openedLe (i i' : Incident) : Prop :=
  i.openedTs < i'.openedTs ∨ (i.openedTs = i'.openedTs ∧ i.id ≤ i'.id)

instance : DecidableRel openedLe := fun i i' => inferInstanceAs (Decidable (_ ∨ _))

def openFor (incidents : List Incident) (row : Evidence) : Option Incident :=
  ((incidents.filter fun i => i.tenant = row.finding.tenant && i.closedTs.isNone &&
    i.entityKey = row.finding.entityKey &&
      row.finding.ts - gapS ≤ i.lastEventTs).insertionSort openedLe).head?

def severityOf (row : Evidence) : ℤ := row.finding.severity.getD 4

def newIncident (incidents : List Incident) (row : Evidence) : Incident where
  id := RowIds.next (incidents.map Incident.id)
  tenant := row.finding.tenant
  entityKey := row.finding.entityKey
  openedTs := row.finding.ts
  lastEventTs := row.finding.ts
  title := entityLabel row.finding.entityKey
  severity := severityOf row
  eventCount := 0

def incidentFor (incidents : List Incident) (row : Evidence) : ℕ × List Incident :=
  match openFor incidents row with
  | some i => (i.id, incidents)
  | none => (RowIds.next (incidents.map Incident.id), incidents ++ [newIncident incidents row])

def Incident.absorb (row : Evidence) (id : ℕ) (i : Incident) : Incident :=
  if i.id = id then
    { i with
      lastEventTs := max i.lastEventTs row.finding.ts
      openedTs := min i.openedTs row.finding.ts
      eventCount := i.eventCount + 1
      severity := min i.severity (severityOf row) }
  else i

/-- A row gets its incident. -/
def Evidence.assign (rowId id : ℕ) (e : Evidence) : Evidence :=
  if e.id = rowId then { e with incidentId := some id } else e

/-- One turn of the first loop of `group_once`: the tables and the incidents touched so far. -/
def assignRow (acc : IncidentStore × List ℕ) (row : Evidence) : IncidentStore × List ℕ :=
  if row.finding.entityKey = "" then acc
  else
    let (id, incidents) := incidentFor acc.1.incidents row
    ({ acc.1 with
        evidence := acc.1.evidence.map (Evidence.assign row.id id)
        incidents := incidents.map (Incident.absorb row id) },
      acc.2 ++ [id])

/-- The first loop of `group_once`. -/
def assignAll (now : ℤ) (st : IncidentStore) : IncidentStore × List ℕ :=
  (unassigned now st.evidence).foldl assignRow (st, [])

/-- The rows of `_RETRACTED_SQL`. -/
def retractedIncidents (now : ℤ) (evidence : List Evidence) : List ℕ :=
  evidence.filterMap fun e =>
    match e.retraction with
    | some mark => if now - evidenceLookbackS ≤ mark.retractedAt then e.incidentId else none
    | none => none

/-- The incidents that `group_once` reasons about, in order. -/
def touched (now : ℤ) (assigned : IncidentStore × List ℕ) : List ℕ :=
  (assigned.2 ++ retractedIncidents now assigned.1.evidence).dedup.insertionSort (· ≤ ·)

/-! ## Reasoning -/

/-- What a recomputation reads besides the tables: the events, whether `mac_history` knows the VLAN
of one of some addresses of a tenant, and the clock when a conclusion is superseded and when it is
drawn. -/
structure Reading where
  events : List Event
  vlansForIps : List String → String → Bool
  supersededAt : ℕ → ℤ
  concludedAt : ℕ → ℤ

def activeEvidence (evidence : List Evidence) (id : ℕ) : List Evidence :=
  (evidence.filter fun e => e.incidentId = some id && e.active).insertionSort evidenceLe

/-- How much of its evidence was taken back. -/
def retractedCount (evidence : List Evidence) (id : ℕ) : ℕ :=
  (evidence.filter fun e => e.incidentId = some id && !e.active).length

def addressesOf (evidence : List Evidence) : List String :=
  ((evidence.flatMap fun e =>
    [nonempty e.finding.srcIp, nonempty e.finding.dstIp]).filterMap id).dedup

def Event.isStateNear (incident : Incident) (ips : List String) (e : Event) : Bool :=
  e.tenant = incident.tenant && e.eventType ∈ ["device.state", "interface.state"] &&
    (e.deviceIp.any fun ip => ip ∈ ips) && incident.openedTs - 300 ≤ e.ts &&
      e.ts ≤ incident.lastEventTs + 300

def corroboratingSources (reading : Reading) (incident : Incident) (evidence : List Evidence) :
    List String :=
  let roles := evidence.map fun e => e.finding.role
  let ips := addressesOf evidence
  (if Role.supporting ∈ roles then ["evidenza_di_supporto"] else []) ++
    (if Role.symptom ∈ roles then ["sintomo_osservato"] else []) ++
    (if Role.consequence ∈ roles then ["conseguenza_osservata"] else []) ++
    (if 1 < (evidence.map Evidence.ruleId).dedup.length then ["piu_regole_concordi"] else []) ++
    (if evidence.any fun e => (nonempty e.switchPort).isSome then ["posizione_fisica"] else []) ++
    (if ips ≠ [] ∧ reading.events.any (Event.isStateNear incident ips) = true then
      ["stato_apparato"] else []) ++
    (if ips ≠ [] ∧ reading.vlansForIps ips incident.tenant = true then
      ["binding_arp_vlan"] else [])

/-- The order of the triggers: the most severe first, then the oldest. -/
def triggerLe (e e' : Evidence) : Prop :=
  e.finding.severity.getD 9 < e'.finding.severity.getD 9 ∨
    (e.finding.severity.getD 9 = e'.finding.severity.getD 9 ∧ evidenceLe e e')

instance : DecidableRel triggerLe := fun e e' => inferInstanceAs (Decidable (_ ∨ _))

def primaryTrigger (evidence : List Evidence) : Option Evidence :=
  ((evidence.filter fun e => e.finding.role = .trigger).insertionSort triggerLe).head?

/-- Why something was concluded: the cause with its provenance, what it is worth by itself and what
reinforces it. -/
structure Deduction where
  cause : String
  ruleVersion : String
  ruleParams : Params
  base : ℤ
  sources : List String

/-- The cause, and what it is worth. -/
def deduce (reading : Reading) (incident : Incident) (evidence : List Evidence) : Deduction :=
  match primaryTrigger evidence with
  | none =>
    ⟨"causa_non_determinata", "-", [], 25, corroboratingSources reading incident evidence⟩
  | some trigger =>
    ⟨trigger.ruleId, trigger.ruleVersion, trigger.params, baseConfidence trigger.ruleId,
      corroboratingSources reading incident evidence⟩

def Deduction.confidence (d : Deduction) : ℤ :=
  min (d.base + confidenceStep * d.sources.length) confidenceMax

/-- The numbers of some rows. -/
def refs (evidence : List Evidence) : Json := .arr (evidence.map fun e => .int e.id)

def Deduction.reasoning (d : Deduction) (evidence : List Evidence) (retracted : ℕ) : Json :=
  .obj [("cause", .str d.cause), ("rule_id", .str d.cause), ("rule_version", .str d.ruleVersion),
    ("rule_params", .obj d.ruleParams), ("base_confidence", .int d.base),
    ("confidence_step", .int confidenceStep),
    ("rules_fired",
      .arr (((evidence.map Evidence.ruleId).dedup.insertionSort (· ≤ ·)).map Json.str)),
    ("sources_used", .arr (d.sources.map Json.str)),
    ("evidence_by_role", .obj ((groupOn (fun e : Evidence => e.finding.role) evidence).map
      fun g => (g.1.word, refs g.2))),
    ("evidence_refs", refs evidence), ("retracted_count", .int retracted)]

/-- The cause where nothing is left. -/
def allRetracted : String := "tutte_le_evidenze_ritrattate"

/-- The text `reasoning_json` where nothing is left. -/
def emptyReasoning (retracted : ℕ) : Json :=
  .obj [("cause", .str allRetracted), ("retracted_count", .int retracted)]

def titleOf (incident : Incident) (evidence : List Evidence) : String :=
  let source := match primaryTrigger evidence with
    | some trigger => trigger.finding.summary
    | none => (evidence.head?.map fun e => e.finding.summary).getD ""
  String.ofList ((if source = "" then entityLabel incident.entityKey else source).toList.take 160)

/-- The order `concluded_ts DESC, id DESC`. -/
def latestLe (c c' : Conclusion) : Prop :=
  c'.concludedTs < c.concludedTs ∨ (c.concludedTs = c'.concludedTs ∧ c'.id ≤ c.id)

instance : DecidableRel latestLe := fun c c' => inferInstanceAs (Decidable (_ ∨ _))

/-- The conclusions about an incident that were not superseded. -/
def currentConclusions (conclusions : List Conclusion) (id : ℕ) : List Conclusion :=
  conclusions.filter fun c => c.incidentId = id && c.supersededTs.isNone

def Conclusion.supersede (ts : ℤ) (id : ℕ) (c : Conclusion) : Conclusion :=
  if c.id = id then { c with supersededTs := some ts } else c

def newConclusion (reading : Reading) (conclusions : List Conclusion) (id : ℕ) (cause : String)
    (confidence : ℤ) (reasoning : Json) : Conclusion where
  id := RowIds.next (conclusions.map Conclusion.id)
  incidentId := id
  concludedTs := reading.concludedAt id
  causeKind := cause
  confidence := confidence
  reasoning := reasoning

def recordConclusion (reading : Reading) (conclusions : List Conclusion) (id : ℕ) (cause : String)
    (confidence : ℤ) (reasoning : Json) : List Conclusion :=
  match ((currentConclusions conclusions id).insertionSort latestLe).head? with
  | some current =>
    if current.reasoning = reasoning then conclusions
    else
      conclusions.map (Conclusion.supersede (reading.supersededAt id) current.id) ++
        [newConclusion reading conclusions id cause confidence reasoning]
  | none => conclusions ++ [newConclusion reading conclusions id cause confidence reasoning]

/-- An incident shows a deduction. -/
def Incident.conclude (id : ℕ) (cause : String) (confidence : ℤ) (reasoning : Json)
    (title : String) (i : Incident) : Incident :=
  if i.id = id then
    { i with
      causeKind := some cause
      confidence := some confidence
      reasoning := some reasoning
      title := title }
  else i

def reason (reading : Reading) (st : IncidentStore) (id : ℕ) : IncidentStore :=
  match st.incidents.find? fun i => i.id = id with
  | none => st
  | some incident =>
    let evidence := activeEvidence st.evidence id
    let retracted := retractedCount st.evidence id
    if evidence = [] then
      if retracted = 0 then { st with reasoned := id :: st.reasoned }
      else
        { st with
          conclusions := recordConclusion reading st.conclusions id allRetracted 0
            (emptyReasoning retracted)
          reasoned := id :: st.reasoned }
    else
      let d := deduce reading incident evidence
      { st with
        incidents := st.incidents.map (Incident.conclude id d.cause d.confidence
          (d.reasoning evidence retracted) (titleOf incident evidence))
        conclusions := recordConclusion reading st.conclusions id d.cause d.confidence
          (d.reasoning evidence retracted)
        reasoned := id :: st.reasoned }

/-- `group_once`: the tables and how many rows were assigned. -/
def groupOnce (reading : Reading) (now : ℤ) (st : IncidentStore) : IncidentStore × ℕ :=
  let assigned := assignAll now st
  ((touched now assigned).foldl (reason reading) assigned.1, assigned.2.length)

/-! ## Closing -/

/-- An incident is closed if it is quiet. -/
def Incident.close (now : ℤ) (i : Incident) : Incident :=
  if i.closedTs = none ∧ i.lastEventTs < now - quietS then { i with closedTs := some now } else i

def closeStale (now : ℤ) (st : IncidentStore) : IncidentStore :=
  { st with incidents := st.incidents.map (Incident.close now) }

/-! ## Runs -/

/-- A cycle of the correlator, of the grouping or of the closing, or a recomputation. -/
inductive Action where
  | correlate (env : Environment) (now : ℤ) (window : Window)
  | group (reading : Reading) (now : ℤ)
  | closeStale (now : ℤ)
  | reason (reading : Reading) (id : ℕ)

def IncidentStore.step (st : IncidentStore) : Action → IncidentStore
  | .correlate env now window =>
    { st with evidence := (correlateOnce env now window.rows st.evidence).1 }
  | .group reading now => (groupOnce reading now st).1
  | .closeStale now => Observability.closeStale now st
  | .reason reading id => Observability.reason reading st id

/-- The actions one after the other, each from a state that meets a condition. -/
inductive Run (P : IncidentStore → Action → Prop) : IncidentStore → List Action → IncidentStore → Prop where
  | nil (st : IncidentStore) : Run P st [] st
  | cons {st st' : IncidentStore} {a : Action} {acts : List Action} :
      P st a → Run P (st.step a) acts st' → Run P st (a :: acts) st'

end SentinelNet.Observability
