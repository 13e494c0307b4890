import SentinelNet.Lib.Assoc
import SentinelNet.Lib.Ipv4

/-!
# Flow export

`observability/ingesters/ipfix.py` decodes the datagrams of NetFlow v5, NetFlow v9 and IPFIX.  In
the last two a template says how long the fields of a record are, and the data that come before
their template are parked.

* `sets`, `templateRecords`: the sets of a datagram, and the templates of a template set.
* `decodeData`, `normalize`: the records of a data set.
* `storeTemplate`, `getTemplate`, `bufferPending`: what the caches do.
* `decodeRecords_fuel`: the loop over the records of a data set comes to its end.
-/

namespace SentinelNet.Ipfix

open Assoc

def maxTemplates : ℕ := 1024

def templateTtlS : ℚ := 1800

def maxPendingSets : ℕ := 256

abbrev Bytes := List UInt8

def uint (b : Bytes) : ℕ := b.foldl (fun n c => n * 256 + c.toNat) 0

def numberAt (data : Bytes) (offset size : ℕ) : ℕ := uint ((data.drop offset).take size)

/-- The fields of a template: the information elements with their lengths; the number of an element
of an enterprise is negative. -/
abbrev Fields := List (ℤ × ℕ)

/-- The length that says that the length is in the record. -/
def variableMark : ℕ := 65535

structure FlowRecord where
  srcIp : String
  dstIp : String
  protocol : Option ℕ
  dstPort : Option ℕ
  bytes : ℕ
  packets : ℕ
  flowEndTs : ℕ
  exporterIp : String
  deriving DecidableEq

/-- `str(ipaddress.IPv4Address(b))`. -/
def ipv4Text (b : Bytes) : String := String.ofList (Ipv4.format (BitVec.ofNat 32 (uint b)))

section Decoding

variable (ipv6Text : Bytes → String)

/-! ## NetFlow v5 -/

/-- One record of a datagram of version 5. -/
def recordV5 (data : Bytes) (offset unixSecs : ℕ) (exporterIp : String) : FlowRecord where
  srcIp := ipv4Text ((data.drop offset).take 4)
  dstIp := ipv4Text ((data.drop (offset + 4)).take 4)
  protocol := some (numberAt data (offset + 38) 1)
  dstPort := some (numberAt data (offset + 34) 2)
  bytes := numberAt data (offset + 20) 4
  packets := numberAt data (offset + 16) 4
  flowEndTs := unixSecs
  exporterIp := exporterIp

/-- `_parse_v5`: nothing where the header is cut. -/
def parseV5 (data : Bytes) (exporterIp : String) : Option (List FlowRecord) :=
  if data.length < 24 then none
  else
    some (((List.range (min (numberAt data 2 2) 30)).takeWhile fun i =>
      24 + 48 * i + 48 ≤ data.length).map fun i =>
        recordV5 data (24 + 48 * i) (numberAt data 8 4) exporterIp)

/-! ## Records of a data set -/

abbrev RawRecord := List (ℤ × Bytes)

def variableLength : Bytes → Option (ℕ × Bytes)
  | [] => none
  | l :: rest =>
    if l.toNat = 255 then
      match rest with
      | a :: b :: rest => some (uint [a, b], rest)
      | _ => none
    else some (l.toNat, rest)

def decodeOneVar : RawRecord → Fields → Bytes → Option (RawRecord × Bytes)
  | rec, [], payload => some (rec, payload)
  | rec, (ie, length) :: fields, payload =>
    match if length = variableMark then variableLength payload else some (length, payload) with
    | none => none
    | some (n, payload) =>
      if payload.length < n then none
      else decodeOneVar (put rec ie (payload.take n)) fields (payload.drop n)

def decodeFixed : RawRecord → Fields → Bytes → RawRecord
  | rec, [], _ => rec
  | rec, (ie, length) :: fields, payload =>
    decodeFixed (put rec ie (payload.take length)) fields (payload.drop length)

def hasVar (fields : Fields) : Bool := fields.any fun f => f.2 = variableMark

/-- `reclen`. -/
def recordLength (fields : Fields) : ℕ :=
  ((fields.filter fun f => f.2 ≠ variableMark).map Prod.snd).sum

/-- The loop of `_decode_data`, as long as there is fuel. -/
def decodeRecords (fields : Fields) : ℕ → Bytes → List RawRecord
  | 0, _ => []
  | fuel + 1, payload =>
    if hasVar fields then
      match decodeOneVar [] fields payload with
      | none => []
      | some (rec, rest) => rec :: decodeRecords fields fuel rest
    else if payload.length < recordLength fields ∨ recordLength fields = 0 then []
    else
      decodeFixed [] fields payload ::
        decodeRecords fields fuel (payload.drop (recordLength fields))

def addressOf (rec : RawRecord) (ie4 ie6 : ℤ) : Option String :=
  match (find rec ie4).filter fun b => b.length = 4 with
  | some b => some (ipv4Text b)
  | none => ((find rec ie6).filter fun b => b.length = 16).map ipv6Text

def nonzero (n : ℕ) : Option ℕ := if n = 0 then none else some n

/-- The number of an element, zero if it is not there. -/
def elementOf (rec : RawRecord) (ie : ℤ) : ℕ := uint ((find rec ie).getD [])

def normalize (rec : RawRecord) (exporterIp : String) (exportTs : ℕ) : Option FlowRecord :=
  match (addressOf ipv6Text rec 8 27).filter (· ≠ ""), (addressOf ipv6Text rec 12 28).filter (· ≠ "") with
  | some src, some dst => some
    { srcIp := src
      dstIp := dst
      protocol := nonzero (elementOf rec 4)
      dstPort := nonzero (elementOf rec 11)
      bytes := elementOf rec 1
      packets := elementOf rec 2
      flowEndTs :=
        if (find rec 151).isSome then elementOf rec 151
        else if (find rec 153).isSome then elementOf rec 153 / 1000
        else exportTs
      exporterIp := exporterIp }
  | _, _ => none

def decodeData (payload : Bytes) (fields : Fields) (exporterIp : String) (exportTs : ℕ) :
    List FlowRecord :=
  (decodeRecords fields (payload.length + 1) payload).filterMap fun rec =>
    normalize ipv6Text rec exporterIp exportTs

end Decoding

/-! ## Sets -/

/-- The sets of a datagram behind its header, up to the first that does not fit. -/
def splitSets : ℕ → Bytes → List (ℕ × Bytes)
  | 0, _ => []
  | fuel + 1, a :: b :: c :: d :: rest =>
    if uint [c, d] < 4 ∨ rest.length + 4 < uint [c, d] then []
    else
      (uint [a, b], rest.take (uint [c, d] - 4)) :: splitSets fuel (rest.drop (uint [c, d] - 4))
  | _, _ => []

/-- The fields of a template, if they are all there, and what follows them. -/
def templateFields (enterpriseCapable : Bool) : ℕ → Bytes → Option Fields × Bytes
  | 0, payload => (some [], payload)
  | n + 1, a :: b :: c :: d :: rest =>
    let (field, rest) : (ℤ × ℕ) × Bytes :=
      if enterpriseCapable = true ∧ 32768 ≤ uint [a, b] then
        ((-((uint [a, b] : ℤ) - 32768), uint [c, d]), rest.drop 4)
      else (((uint [a, b] : ℤ), uint [c, d]), rest)
    let (fields, rest) := templateFields enterpriseCapable n rest
    (fields.map (field :: ·), rest)
  | _, payload => (none, payload)

/-- `_parse_template_set`: the templates, in order. -/
def templateRecords (enterpriseCapable : Bool) : ℕ → Bytes → List (ℕ × Fields)
  | 0, _ => []
  | fuel + 1, a :: b :: c :: d :: rest =>
    match templateFields enterpriseCapable (uint [c, d]) rest with
    | (some (field :: fields), rest) =>
      (uint [a, b], field :: fields) :: templateRecords enterpriseCapable fuel rest
    | (_, rest) => templateRecords enterpriseCapable fuel rest
  | _, _ => []

/-! ## Caches -/

/-- A template is of an exporter, an observation domain and a number. -/
abbrev Key := String × ℕ × ℕ

/-- A data set with what its records need of its datagram. -/
structure Parked where
  payload : Bytes
  exporterIp : String
  exportTs : ℕ

/-- The state of the module: `_templates` with the time of each, `_pending`, `_decoded_pending`, how
often the clock was read, and the metrics. -/
structure Cache where
  templates : List (Key × Fields × ℚ) := []
  pending : List (Key × List Parked) := []
  decodedPending : List FlowRecord := []
  reads : ℕ := 0
  dropped : ℕ := 0
  parseErrors : ℕ := 0

/-- No datagram has come yet. -/
def Cache.empty : Cache := {}

def Cache.parkedSets (c : Cache) : ℕ := (c.pending.map fun e => e.2.length).sum

/-- The oldest template, the first of them where there are several, is evicted. -/
def dropOldest (templates : List (Key × Fields × ℚ)) : List (Key × Fields × ℚ) :=
  match templates.argmin fun e => e.2.2 with
  | some e => erase templates e.1
  | none => templates

section Parsing

variable (ipv6Text : Bytes → String) (time : ℕ → ℚ)

def evictIfNeeded (c : Cache) : Cache :=
  if c.templates.length ≤ maxTemplates then c
  else
    let live := c.templates.filter fun e => time c.reads - e.2.2 ≤ templateTtlS
    { c with
      templates := dropOldest^[live.length - maxTemplates] live
      reads := c.reads + 1 }

def Parked.decode (fields : Fields) (p : Parked) : List FlowRecord :=
  decodeData ipv6Text p.payload fields p.exporterIp p.exportTs

def storeTemplate (key : Key) (fields : Fields) (c : Cache) : Cache :=
  let c := evictIfNeeded time
    { c with
      templates := put c.templates key (fields, time c.reads)
      reads := c.reads + 1 }
  { c with
    pending := erase c.pending key
    decodedPending := c.decodedPending ++
      ((find c.pending key).getD []).flatMap (Parked.decode ipv6Text fields) }

def getTemplate (key : Key) (c : Cache) : Option Fields × Cache :=
  match find c.templates key with
  | none => (none, c)
  | some (fields, ts) =>
    if templateTtlS < time c.reads - ts then
      (none, { c with templates := erase c.templates key, reads := c.reads + 1 })
    else (some fields, { c with reads := c.reads + 1 })

def bufferPending (key : Key) (p : Parked) (c : Cache) : Cache :=
  if maxPendingSets ≤ c.parkedSets then { c with dropped := c.dropped + 1 }
  else { c with pending := put c.pending key ((find c.pending key).getD [] ++ [p]) }

def dataSet (key : Key) (p : Parked) (c : Cache) : List FlowRecord × Cache :=
  match getTemplate time key c with
  | (some fields, c) => (p.decode ipv6Text fields, c)
  | (none, c) => ([], bufferPending key p c)

/-! ## Datagrams -/

/-- What tells NetFlow v9 and IPFIX apart. -/
structure Protocol where
  headerLength : ℕ
  timeOffset : ℕ
  domainOffset : ℕ
  templateSet : ℕ
  optionsSet : ℕ
  enterpriseCapable : Bool

/-- A set of a datagram, as the records so far and the caches meet it. -/
def handleSet (protocol : Protocol) (exporterIp : String) (exportTs domain : ℕ)
    (acc : List FlowRecord × Cache) (set : ℕ × Bytes) : List FlowRecord × Cache :=
  if set.1 = protocol.templateSet then
    (acc.1, (templateRecords protocol.enterpriseCapable (set.2.length + 1) set.2).foldl
      (fun c t => storeTemplate ipv6Text time (exporterIp, domain, t.1) t.2 c) acc.2)
  else if set.1 = protocol.optionsSet then acc
  else if 255 < set.1 then
    let (records, c) :=
      dataSet ipv6Text time (exporterIp, domain, set.1) ⟨set.2, exporterIp, exportTs⟩ acc.2
    (acc.1 ++ records, c)
  else acc

/-- `_drain_pending_decoded`, behind the records of a datagram. -/
def drain (acc : List FlowRecord × Cache) : List FlowRecord × Cache :=
  (acc.1 ++ acc.2.decodedPending, { acc.2 with decodedPending := [] })

/-- A datagram with templates: nothing where the header is cut. -/
def parseTemplated (protocol : Protocol) (data : Bytes) (exporterIp : String) (c : Cache) :
    Option (List FlowRecord × Cache) :=
  if data.length < protocol.headerLength then none
  else
    some (drain ((splitSets (data.length + 1) (data.drop protocol.headerLength)).foldl
      (handleSet ipv6Text time protocol exporterIp (numberAt data protocol.timeOffset 4)
        (numberAt data protocol.domainOffset 4)) ([], c)))

def netflowV9 : Protocol := ⟨20, 8, 16, 0, 1, false⟩

def ipfix : Protocol := ⟨16, 4, 12, 2, 3, true⟩

def parseV9 : Bytes → String → Cache → Option (List FlowRecord × Cache) :=
  parseTemplated ipv6Text time netflowV9

def parseIpfix : Bytes → String → Cache → Option (List FlowRecord × Cache) :=
  parseTemplated ipv6Text time ipfix

/-- `parse`: no records, and an error in the metrics, where the version is not known or the header
is cut. -/
def parse (data : Bytes) (exporterIp : String) (c : Cache) : List FlowRecord × Cache :=
  if data.length < 4 then ([], c)
  else
    let parsed :=
      if numberAt data 0 2 = 5 then (parseV5 data exporterIp).map fun records => (records, c)
      else if numberAt data 0 2 = 9 then parseV9 ipv6Text time data exporterIp c
      else if numberAt data 0 2 = 10 then parseIpfix ipv6Text time data exporterIp c
      else none
    parsed.getD ([], { c with parseErrors := c.parseErrors + 1 })

end Parsing

/-! ## The loops come to their end -/

variable {payload : Bytes} {fuel : ℕ}

theorem splitSets_fuel (h : payload.length < fuel) :
    splitSets (fuel + 1) payload = splitSets fuel payload := by
  induction fuel generalizing payload with
  | zero => exact absurd h (Nat.not_lt_zero _)
  | succ fuel ih =>
    match payload with
    | a :: b :: c :: d :: rest =>
      rw [splitSets, splitSets]
      split
      · rfl
      · rw [ih]
        simp only [List.length_cons, List.length_drop] at h ⊢
        omega
    | [] => rfl
    | [_] => rfl
    | [_, _] => rfl
    | [_, _, _] => rfl

theorem length_templateFields (enterpriseCapable : Bool) (n : ℕ) (payload : Bytes) :
    (templateFields enterpriseCapable n payload).2.length ≤ payload.length := by
  induction n generalizing payload with
  | zero => exact le_refl _
  | succ n ih =>
    match payload with
    | a :: b :: c :: d :: rest =>
      rw [templateFields]
      split
      next field tail heq =>
      have htail : tail.length ≤ rest.length := by
        split at heq
        · rw [← (Prod.mk.inj heq).2, List.length_drop]
          exact Nat.sub_le _ _
        · rw [← (Prod.mk.inj heq).2]
      have hrest := ih tail
      simp only [List.length_cons]
      omega
    | [] => exact le_refl _
    | [_] => exact le_refl _
    | [_, _] => exact le_refl _
    | [_, _, _] => exact le_refl _

theorem templateRecords_fuel {enterpriseCapable : Bool}
    (h : payload.length < fuel) : templateRecords enterpriseCapable (fuel + 1) payload =
      templateRecords enterpriseCapable fuel payload := by
  induction fuel generalizing payload with
  | zero => exact absurd h (Nat.not_lt_zero _)
  | succ fuel ih =>
    match payload with
    | a :: b :: c :: d :: rest =>
      have hlength := length_templateFields enterpriseCapable (uint [c, d]) rest
      have hshort : (templateFields enterpriseCapable (uint [c, d]) rest).2.length < fuel := by
        simp only [List.length_cons] at h
        omega
      rw [templateRecords, templateRecords]
      split
      · next heq =>
        rw [heq] at hshort
        rw [ih hshort]
      · next heq =>
        rw [heq] at hshort
        exact ih hshort
    | [] => rfl
    | [_] => rfl
    | [_, _] => rfl
    | [_, _, _] => rfl

theorem length_variableLength {rest : Bytes} {n : ℕ}
    (h : variableLength payload = some (n, rest)) : rest.length < payload.length := by
  match payload with
  | [] => exact absurd h (by simp [variableLength])
  | l :: tail =>
    simp only [variableLength] at h
    split at h
    · split at h
      · rw [← (Prod.mk.inj (Option.some.inj h)).2]
        simp only [List.length_cons]
        omega
      · simp at h
    · rw [← (Prod.mk.inj (Option.some.inj h)).2]
      exact Nat.lt_succ_self _

theorem length_decodeOneVar {fields : Fields} {rest : Bytes} {rec out : RawRecord}
    (h : decodeOneVar rec fields payload = some (out, rest)) :
    rest.length ≤ payload.length ∧ (hasVar fields = true → rest.length < payload.length) := by
  induction fields generalizing rec payload with
  | nil =>
    rw [decodeOneVar] at h
    rw [(Prod.mk.inj (Option.some.inj h)).2]
    exact ⟨le_refl _, fun hvar => absurd hvar (by simp [hasVar])⟩
  | cons field fields ih =>
    obtain ⟨ie, length⟩ := field
    rw [decodeOneVar] at h
    split at h
    · simp at h
    · next n tail hlength =>
      split at h
      · simp at h
      · obtain ⟨hle, hlt⟩ := ih h
        have hdrop : (tail.drop n).length ≤ tail.length := by
          rw [List.length_drop]
          exact Nat.sub_le _ _
        split at hlength
        · have htail := length_variableLength hlength
          exact ⟨by omega, fun _ => by omega⟩
        · next hfixed =>
          rw [← (Prod.mk.inj (Option.some.inj hlength)).2] at hle hlt hdrop
          refine ⟨hle.trans hdrop, fun hvar => (hlt ?_).trans_le hdrop⟩
          simpa [hasVar, hfixed] using hvar

/-- More fuel than bytes decodes no more. -/
theorem decodeRecords_fuel {fields : Fields} (h : payload.length < fuel) :
    decodeRecords fields (fuel + 1) payload = decodeRecords fields fuel payload := by
  induction fuel generalizing payload with
  | zero => exact absurd h (Nat.not_lt_zero _)
  | succ fuel ih =>
    rw [decodeRecords]
    conv_rhs => rw [decodeRecords]
    split
    · next hvar =>
      split
      · rfl
      · next out rest heq =>
        have hlt := (length_decodeOneVar heq).2 hvar
        rw [ih (by omega)]
    · split
      · rfl
      · next hstop =>
        have hshort : (payload.drop (recordLength fields)).length < fuel := by
          rw [List.length_drop]
          omega
        rw [ih hshort]

/-- No bytes keep the decoder busy: each of its loops ends after at most one round more than there
are bytes. -/
theorem loops_end (payload : Bytes) (fields : Fields) (enterpriseCapable : Bool) (extra : ℕ) :
    let fuel := payload.length + 1
    splitSets (fuel + extra) payload = splitSets fuel payload ∧
      templateRecords enterpriseCapable (fuel + extra) payload =
        templateRecords enterpriseCapable fuel payload ∧
      decodeRecords fields (fuel + extra) payload = decodeRecords fields fuel payload := by
  induction extra with
  | zero => exact ⟨rfl, rfl, rfl⟩
  | succ extra ih =>
    have hlt : payload.length < payload.length + 1 + extra := by omega
    exact ⟨(splitSets_fuel hlt).trans ih.1, (templateRecords_fuel hlt).trans ih.2.1,
      (decodeRecords_fuel hlt).trans ih.2.2⟩

end SentinelNet.Ipfix
