import SentinelNet.Lib.Dict
import SentinelNet.Lib.Regex

/-!
# The routing table of an IOS device

`services/route_table.py`, the reader of `show ip route`.  The source goes through the lines and
holds the rows so far and the network of a line that was wrapped, which waits for its next hops.
A line is one of four things: a next hop without a network, an interface of the network that waits,
a route, or nothing.

* `parseIosRoutes`: the rows of an output.
-/

namespace SentinelNet.RouteTable

open PyText Regex

/-- A row of the routing table. -/
structure Row where
  network : String
  gateway : String := ""
  interface : String := ""
  type : String
  distance : ℕ := 0
  metric : ℕ := 0
  deriving DecidableEq

def iosCodeTypes : List (Char × String) :=
  [('C', "connected"), ('L', "local"), ('S', "static"), ('R', "rip"), ('B', "bgp"), ('O', "ospf"),
    ('D', "eigrp"), ('i', "isis"), ('M', "other")]

def qualifiers : List (List Char) :=
  ["IA", "EX", "E1", "E2", "N1", "N2", "L1", "L2", "su"].map String.toList

/-! ## Expressions -/

/-- `[A-Za-z]`. -/
def isLetter (c : Char) : Bool := c.isUpper || c.isLower

/-- `\d{1,3}`. -/
def reOctet : Re := .many Char.isDigit 1 (some 3)

/-- `\d{1,3}(?:\.\d{1,3}){3}`. -/
def reQuad : Re := .seq reOctet (.times 3 (.seq (.chr (· == '.')) reOctet))

/-- `IA|EX|E1|E2|N1|N2|L1|L2|su`. -/
def reQualifier : List (List Char) → Re
  | [] => .chr fun _ => false
  | [q] => .lit q
  | q :: qs => .alt (.lit q) (reQualifier qs)

/-- `\d{1,3}(?:\.\d{1,3}){3}(?:/\d{1,2})?`. -/
def reNet : Re :=
  .seq reQuad (.opt (.seq (.chr (· == '/')) (.many Char.isDigit 1 (some 2))))

/-- `(?:\s+(?P<rest>.*))?$`. -/
def reRest : Re := .seq (.opt (.seq .spaces1 (.group "rest" .anything))) .eol

/-- `\s+(?P<net>...)` and what follows. -/
def reNetRest : Re := .seq .spaces1 (.seq (.group "net" reNet) reRest)

def reIosRoute : Re :=
  .seq (.group "code" (.chr isLetter)) (.seq (.opt (.group "star" (.chr (· == '*'))))
    (.seq (.opt (.seq .spaces1 (reQualifier qualifiers))) reNetRest))

def reIosVia : Re :=
  .seq (.chr (· == '[')) (.seq (.group "dist" .digits1) (.seq (.chr (· == '/'))
    (.seq (.group "metric" .digits1) (.seq (.chr (· == ']')) (.seq .spaces1
      (.seq (.lit "via".toList) (.seq .spaces1 (.seq (.group "gw" reQuad)
        (.seq (.group "tail" .anything) .eol)))))))))

def reIosExtraHop : Re := .seq .spaces1 reIosVia

def reIosConnected : Re :=
  .seq (.lit "is".toList) (.seq .spaces1 (.seq (.lit "directly".toList) (.seq .spaces1
    (.seq (.lit "connected,".toList) (.seq .spaces0
      (.group "intf" (.many (fun c => !isSpace c) 1 none)))))))

/-- `[\d:]+|\d+[dwyhm]\d*[dwyhm]?|never`. -/
def reAge : Re :=
  let unit : Re := .chr fun c => c ∈ ['d', 'w', 'y', 'h', 'm']
  .alt (.many (fun c => c.isDigit || c == ':') 1 none)
    (.alt (.seq .digits1 (.seq unit (.seq (.many Char.isDigit 0 none) (.opt unit))))
      (.lit "never".toList))

/-! ## Lines -/

def iosInterface (tail : List Char) : List Char :=
  let parts := ((tail.splitOn ',').map stripChars).filter fun x => x ≠ []
  match parts.getLast? with
  | none => []
  | some last => if (fullmatch reAge last).isSome then [] else last

/-- A line that is no route: a heading, the name of a group of subnets, or an error. -/
def isHeading (line : List Char) : Bool :=
  let low := (stripChars line).map Char.toLower
  "codes:".toList.isPrefixOf low || "gateway of last resort".toList.isPrefixOf low ||
    (low.tails.any fun t => "subnetted".toList.isPrefixOf t) || "%".toList.isPrefixOf low

/-- The row of a next hop on the line of another network. -/
def viaRow (base : Row) (m : Caps) : Row :=
  { base with
    gateway := String.ofList (capture m "gw")
    interface := String.ofList (iosInterface (capture m "tail"))
    distance := ofDigits (capture m "dist")
    metric := ofDigits (capture m "metric") }

def interfaceRow (base : Row) (m : Caps) : Row :=
  { base with interface := String.ofList (capture m "intf") }

/-- A line with a code and a network: the rows so far and the network that waits. -/
def codeLine (st : List Row × Option Row) (line : List Char) : List Row × Option Row :=
  match matchStart reIosRoute (stripChars line) with
  | none => st
  | some m =>
    match iosCodeTypes.lookup ((capture m "code").headD ' ') with
    | none => st
    | some routeType =>
      let rest := capture m "rest"
      let base : Row := { network := String.ofList (capture m "net"), type := routeType }
      if stripChars rest = [] then (st.1, some base)
      else
        match search reIosConnected rest with
        | some conn => (st.1 ++ [interfaceRow base conn], none)
        | none =>
          match search reIosVia rest with
          | some via => (st.1 ++ [viaRow base via], none)
          | none => (st.1, none)

/-- A line that is no next hop without a network. -/
def networkLine (st : List Row × Option Row) (line : List Char) : List Row × Option Row :=
  match st.2 with
  | some pending =>
    match search reIosConnected line with
    | some conn => (st.1 ++ [interfaceRow pending conn], some pending)
    | none => codeLine st line
  | none => codeLine st line

/-- One line of the loop of `parse_ios_routes`. -/
def routeLine (st : List Row × Option Row) (raw : List Char) : List Row × Option Row :=
  let line := rstripChars raw
  if stripChars line = [] ∨ isHeading line then st
  else
    match matchStart reIosExtraHop line, st.2.or st.1.getLast? with
    | some m, some base => (st.1 ++ [viaRow base m], st.2)
    | _, _ => networkLine st line

def parseIosRoutes (output : String) : List Row :=
  ((splitlinesChars output.toList).foldl routeLine ([], none)).1

example : parseIosRoutes "O        10.2.3.0/24\n   [110/20] via 10.0.0.2, 1d02h, Vlan10\n" =
    [{ network := "10.2.3.0/24", gateway := "10.0.0.2", interface := "Vlan10", type := "ospf",
       distance := 110, metric := 20 }] := by decide

end SentinelNet.RouteTable
