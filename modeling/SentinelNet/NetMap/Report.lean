import SentinelNet.Lib.DictLoops
import SentinelNet.NetMap.Drawing

/-!
# The report of port-channels

`_get_portchannel_report` walks over the same backups as the network map: every backup of a device
of the inventory has a row with the aggregates of the device and its other ports, and with the
neighbours that are announced on their members.

* `Sources.reportRow`: the row of a file, for one group or for all.
* `getPortchannelReport`: the rows, sorted by host name.
-/

namespace SentinelNet.NetMap

open PyDict PyText Inventory

/-- An aggregate of a device; the state is missing where it is not known. -/
structure ChannelRow where
  name : String
  members : List String
  shutMembers : List String
  neighbors : List String
  status : Option String
  up : Option ℕ
  total : Option ℕ
  issue : Bool
  issueMsg : String
  deriving DecidableEq

structure ReportRow where
  ip : String
  hostname : String
  group : String
  backupTs : Option ℤ
  portchannels : List ChannelRow
  singles : List String
  deriving DecidableEq

/-- `fn[:-4].rsplit('-', 1)[0]`. -/
def hostnameOfReport (filename : String) : String :=
  let stem := filename.toList.take (filename.toList.length - 4)
  if '-' ∈ stem then String.ofList ((stem.reverse.dropWhile (· ≠ '-')).drop 1).reverse
  else String.ofList stem

def Backup.neighByPort (b : Backup) : Dict String :=
  b.neighbors.foldl (fun d n =>
    if normalizeIface n.localPort ≠ "" ∧ n.neighborId ≠ "" then
      setDefault d (normalizeIface n.localPort) n.neighborId
    else d) []

/-- An aggregate, with its members. -/
def Backup.channelRow (b : Backup) (p : String × List String) : ChannelRow :=
  let neighbors := p.2.foldl (fun out m =>
    match get? b.neighByPort (normalizeIface m) with
    | some nm => if baseName nm ≠ "" then PyDict.pushNew out (baseName nm) else out
    | none => out) []
  let state := get? b.channelStatus (String.ofList (p.1.toList.filter Char.isDigit))
  { name := p.1
    members := p.2
    shutMembers := p.2.filter (· ∈ b.shutdown)
    neighbors := neighbors
    status := state.map ChannelStatus.status
    up := state.map ChannelStatus.up
    total := state.map ChannelStatus.total
    issue := state.elim false ChannelStatus.issue
    issueMsg := state.elim "" ChannelStatus.issueMsg }

section Report

variable (w : Sources)

def showsGroup (groupFilter : Option String) (group : String) : Bool :=
  match groupFilter with
  | some filter => filter = "" || filter = "all" || group = filter
  | none => true

def Sources.reportRow (groupFilter : Option String) (f : File) : Option ReportRow :=
  match firstAddress f.name with
  | none => none
  | some ip =>
    match get? w.ipToDevice ip, f.content with
    | some dev, some b =>
      if showsGroup groupFilter dev.group then
        some
          { ip := ip
            hostname := if b.hostname = "" then hostnameOfReport f.name else b.hostname
            group := dev.group
            backupTs := f.modified
            portchannels := b.portchannels.map b.channelRow
            singles := b.singles }
      else none
    | _, _ => none

def getPortchannelReport (groupFilter : Option String) : List ReportRow :=
  ((backupFiles w.walk).filterMap (w.reportRow groupFilter)).insertionSort fun r r' =>
    lower r.hostname ≤ lower r'.hostname

end Report

end SentinelNet.NetMap
