import SentinelNet.Lib.Ipv4
import SentinelNet.RouteTable.IosRoutes

/-!
# The entries of a routing table

The output of `show ip route` as a list of route entries, the lines each of them is printed on and
the rows each of them stands for, and the reader of the output compared with both.

A mark of a code may be printed with blanks before its qualifier or directly after the code, as in
`O*E2`; the reader knows the first kind only.  A one-line entry of a connected network is read as an
interface of the network that waits when there is one, whatever its own network is.  So the rows come
out right as long as what a line is attributed to agrees with its own entry, and `Attributed` says
when this is so.

* `RouteEntry`: an entry with its lines and its rows.
* `parseIosRoutes_eq_iff`: the rows are those of the entries exactly then.
-/

namespace SentinelNet.RouteTable

open PyText Regex

/-! ## Texts -/

def blanks (n : ℕ) : List Char := List.replicate n ' '

/-- The characters an age is printed with. -/
def isAgeChar (c : Char) : Bool := c.isDigit || c ∈ ":dwyhmnevr".toList

structure Age where
  text : List Char
  isAge : (fullmatch reAge text).isSome = true

/-- The name of an interface: no white space and no comma in it, and neither an age nor a
heading. -/
structure IntfName where
  text : List Char
  nonempty : text ≠ []
  solid : ∀ c ∈ text, isSpace c = false ∧ c ≠ ','
  notAge : (fullmatch reAge text).isSome = false
  notHeading : ¬ "subnetted".toList <:+: text.map Char.toLower

/-- The code of an entry with its mark, and its network. -/
structure EntryHead where
  code : Char
  type : String
  known : iosCodeTypes.lookup code = some type
  star : Bool
  /-- The qualifier with the number of blanks before it. -/
  qual : Option (ℕ × List Char)
  qual_mem : ∀ q ∈ qual, q.2 ∈ qualifiers
  gap : ℕ
  net : Ipv4.Addr
  len : ℕ
  len_le : len ≤ 32

namespace EntryHead

/-- The qualifier stands directly after the code. -/
def glued (h : EntryHead) : Bool := h.qual.any fun q => q.1 == 0

/-- What stands between the code and the network. -/
def mark (h : EntryHead) : List Char :=
  (if h.star then ['*'] else []) ++ ((h.qual.map fun q => blanks q.1 ++ q.2).getD []) ++
    blanks (h.gap + 1)

/-- The network. -/
def netText (h : EntryHead) : List Char := Ipv4.format h.net ++ '/' :: decimal h.len

def text (h : EntryHead) : List Char := h.code :: h.mark ++ h.netText

/-- A row of the network, before its next hop is known. -/
def row (h : EntryHead) : Row := { network := String.ofList h.netText, type := h.type }

end EntryHead

structure Hop where
  dist : ℕ
  metric : ℕ
  gw : Ipv4.Addr
  age : Option Age
  intf : Option IntfName

namespace Hop

/-- What stands after the gateway. -/
def tail (h : Hop) : List Char :=
  ((h.age.map fun a => ',' :: ' ' :: a.text).getD []) ++
    (h.intf.map fun i => ',' :: ' ' :: i.text).getD []

/-- `[d/m] via GW` and what stands after it. -/
def text (h : Hop) : List Char :=
  '[' :: decimal h.dist ++ '/' :: decimal h.metric ++ "] via ".toList ++ Ipv4.format h.gw ++ h.tail

def row (h : Hop) (base : Row) : Row :=
  { base with
    gateway := String.ofList (Ipv4.format h.gw)
    interface := String.ofList ((h.intf.map IntfName.text).getD [])
    distance := h.dist
    metric := h.metric }

end Hop

def directText (i : IntfName) : List Char := "is directly connected, ".toList ++ i.text

/-- The row of an interface of a network. -/
def directRow (i : IntfName) (base : Row) : Row :=
  { base with interface := String.ofList i.text }

/-- A line below a wrapped network. -/
inductive WrappedHop where
  | via (indent : ℕ) (hop : Hop)
  | direct (indent : ℕ) (intf : IntfName)

namespace WrappedHop

def line : WrappedHop → List Char
  | via n hop => blanks (n + 1) ++ hop.text
  | direct n i => blanks (n + 1) ++ directText i

def row (base : Row) : WrappedHop → Row
  | via _ hop => hop.row base
  | direct _ i => directRow i base

end WrappedHop

inductive RouteEntry where
  /-- `CODE NET/LEN is directly connected, IF` on one line. -/
  | connected (head : EntryHead) (gap : ℕ) (intf : IntfName)
  /-- `CODE NET/LEN [d/m] via GW` on one line, and more next hops below. -/
  | via (head : EntryHead) (gap : ℕ) (hop : Hop) (more : List (ℕ × Hop))
  /-- `CODE NET/LEN` on a line of its own, and its next hops below. -/
  | wrapped (head : EntryHead) (hops : List WrappedHop)

namespace RouteEntry

def lines : RouteEntry → List (List Char)
  | connected h gap i => [h.text ++ blanks (gap + 1) ++ directText i]
  | via h gap hop more =>
    (h.text ++ blanks (gap + 1) ++ hop.text) :: more.map fun m => blanks (m.1 + 1) ++ m.2.text
  | wrapped h hops => h.text :: hops.map WrappedHop.line

def rows : RouteEntry → List Row
  | connected h _ i => [directRow i h.row]
  | via h _ hop more => hop.row h.row :: more.map fun m => m.2.row h.row
  | wrapped h hops => hops.map (WrappedHop.row h.row)

end RouteEntry

def outputOf (entries : List RouteEntry) : String :=
  String.ofList (joinLines (entries.flatMap RouteEntry.lines))

/-! ## When the lines are attributed to their entries -/

/-- What a row is attributed to: its network and its type. -/
abbrev Source := String × String

def EntryHead.source (h : EntryHead) : Source := (h.row.network, h.row.type)

def Row.source (r : Row) : Source := (r.network, r.type)

/-- A line below a wrapped network is attributed to what waits, and a next hop otherwise to the last
row. -/
def WrappedHop.AttributedTo (s : Source) (pending last : Option Source) : WrappedHop → Prop
  | via _ _ => pending.or last = some s
  | direct _ _ => pending = some s

/-- The lines below a wrapped network are attributed to it, the first of them after a row of `last`,
the others after a row of this network. -/
def HopsAttributed (s : Source) (pending : Option Source) : Option Source → List WrappedHop → Prop
  | _, [] => True
  | last, hop :: hops =>
    hop.AttributedTo s pending last ∧ HopsAttributed s pending (some s) hops

/-- The source of the last row after the lines below a wrapped network. -/
def lastAfter (s : Source) (last : Option Source) (hops : List WrappedHop) : Option Source :=
  if hops = [] then last else some s

/-- The lines of an entry are attributed to its own network, when the network that waits and the
last row have the given sources. -/
def RouteEntry.Attributed (pending last : Option Source) : RouteEntry → Prop
  | connected h _ _ =>
    match pending with
    | some s => s = h.source
    | none => h.glued = false
  | via h _ _ _ => h.glued = false
  | wrapped h hops =>
    if h.glued then HopsAttributed h.source pending last hops
    else True

def RouteEntry.after (pending last : Option Source) : RouteEntry → Option Source × Option Source
  | connected h _ _ => (pending, some h.source)
  | via h _ _ _ => (none, some h.source)
  | wrapped h hops =>
    (if h.glued then pending else some h.source, lastAfter h.source last hops)

/-- The lines of all entries are attributed to their own networks. -/
def AttributedFrom : Option Source → Option Source → List RouteEntry → Prop
  | _, _, [] => True
  | pending, last, e :: entries =>
    e.Attributed pending last ∧
      AttributedFrom (e.after pending last).1 (e.after pending last).2 entries

/-- The lines of an output are attributed to their own networks. -/
def Attributed (entries : List RouteEntry) : Prop := AttributedFrom none none entries

end SentinelNet.RouteTable
