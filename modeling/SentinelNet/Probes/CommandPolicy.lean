import SentinelNet.Inventory.CsvFile

/-!
# Dangerous commands

`security/command_policy.py` keeps the patterns of the commands that an operator may not send while
the setting `cli_blacklist_operators` is on.  They are searched for in the command without its
surrounding white space, in lower case.

* `interactivePatterns`: the list for commands to a single device.
* `matchesInteractive`: the first pattern that a command matches.
-/

namespace SentinelNet.Probes

open Observability PyText
open Inventory (Unicode)

/-! ## Patterns -/

/-- A pattern.  Whether it occurs does not depend on the order of the tries, so repetitions are
neither greedy nor lazy. -/
inductive Pattern where
  | empty
  | one (p : Char → Bool)
  | seq (a b : Pattern)
  | alt (a b : Pattern)
  | many (p : Char → Bool) (least : ℕ)
  /-- `^`. -/
  | start
  /-- `\b`. -/
  | boundary

/-- A place in a text: the character before it, if there is one, and what follows. -/
abbrev Place := Option Char × List Char

def places (cs : List Char) : List Place := (none :: cs.map some).zip cs.tails

/-- `\w`. -/
def isWord (u : Unicode) (c : Char) : Bool := u.isalnum c || c = '_'

/-- The places at which an occurrence that begins at a place may end. -/
def Pattern.ends (u : Unicode) : Pattern → Place → List Place
  | .empty, spot => [spot]
  | .one _, (_, []) => []
  | .one p, (_, c :: cs) => if p c then [(some c, cs)] else []
  | .seq a b, spot => (a.ends u spot).flatMap (b.ends u)
  | .alt a b, spot => a.ends u spot ++ b.ends u spot
  | .many p least, (before, cs) =>
    ((List.range ((cs.takeWhile p).length + 1)).filter (least ≤ ·)).map fun n =>
      ((cs.take n).getLast?.or before, cs.drop n)
  | .start, (before, cs) => if before.isNone then [(before, cs)] else []
  | .boundary, (before, cs) =>
    if before.any (isWord u) = cs.head?.any (isWord u) then [] else [(before, cs)]

def Pattern.search (u : Unicode) (p : Pattern) (s : String) : Bool :=
  (places s.toList).any fun spot => !(p.ends u spot).isEmpty

namespace Pattern

/-- A literal text. -/
def lit (s : String) : Pattern := s.toList.foldr (fun c p => .seq (.one (· = c)) p) .empty

def cat (ps : List Pattern) : Pattern := ps.foldr .seq .empty

def word (s : String) : Pattern := cat [.boundary, lit s, .boundary]

/-- `\s+`. -/
def spaces : Pattern := .many isSpace 1

/-- `_abbrev`: a word and what it may be cut to. -/
def abbreviated (s : String) (shortest : ℕ) : Pattern :=
  let cuts := (List.range (s.length + 1 - shortest)).map fun k =>
    lit (String.ofList (s.toList.take (s.length - k)))
  match cuts with
  | [] => .empty
  | first :: rest => cat [.boundary, rest.foldl .alt first, .boundary]

end Pattern

open Pattern

def interactivePatterns (u : Unicode) : List Pattern :=
  [abbreviated "reload" 3, abbreviated "erase" 3, abbreviated "delete" 3, abbreviated "format" 4,
    word "reboot",
    cat [.start, lit "conf", .many (isWord u) 0, .boundary],
    cat [.boundary, lit "conf", .many (isWord u) 0, spaces, lit "t", .many (isWord u) 0, .boundary],
    cat [.boundary, lit "copy", spaces, .many (· ≠ '\n') 0, lit "startup-config", .boundary],
    abbreviated "write" 2,
    cat [.boundary, lit "boot", spaces, lit "system", .boundary],
    cat [.boundary, lit "factory", .alt (.one fun c => c = '-' || isSpace c) .empty, lit "reset",
      .boundary],
    cat [.boundary, lit "request", spaces, lit "system", .boundary],
    word "rollback", word "halt", word "zeroize",
    cat [.boundary, lit "clear", spaces, lit "config", .boundary]]

def matchesInteractive (u : Unicode) (command : String) : Option Pattern :=
  (interactivePatterns u).find? fun p => p.search u (lowerText (strip command))

def isCommandSafe (u : Unicode) (command : String) : Bool := (matchesInteractive u command).isNone

end SentinelNet.Probes
