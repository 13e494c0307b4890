import SentinelNet.Lib.Dict
import SentinelNet.Lib.Regex

/-!
# The FortiOS block structure

`fw_analyzers/fortios.py`, the parser of `config`/`edit`/`set`/`next`/`end` blocks that the policy
front end reads its objects from.  A node has settings and named children.  The source keeps a
stack of references into the tree; here the stack is the path of names from the root, and a line
changes the node at this path.

* `fortiTree`: the tree of a text.
* `fortiTree_unique`: no node of it has two settings or two children of one name.
-/

namespace SentinelNet.FwAnalyzers

open PyText

/-- A node of the configuration tree. -/
inductive Node where
  | mk (sets : PyDict.Dict (List String)) (children : List (String × Node))

namespace Node

def sets : Node → PyDict.Dict (List String)
  | .mk sets _ => sets

def children : Node → PyDict.Dict Node
  | .mk _ children => children

/-- `{"sets": {}, "children": {}}`. -/
def empty : Node := .mk [] []

/-- `node["children"].setdefault(name, empty)`. -/
def addChild (name : String) (n : Node) : Node :=
  .mk n.sets (PyDict.setDefault n.children name empty)

def putSet (key : String) (values : List String) (n : Node) : Node :=
  .mk (PyDict.set n.sets key values) n.children

/-- Change the node at a path. -/
def update (f : Node → Node) : List String → Node → Node
  | [], n => f n
  | name :: path, n =>
    match PyDict.get? n.children name with
    | some child => .mk n.sets (PyDict.set n.children name (update f path child))
    | none => n

/-- No node has two settings or two children of one name. -/
inductive Unique : Node → Prop
  | mk {sets : PyDict.Dict (List String)} {children : List (String × Node)}
      (hsets : PyDict.Unique sets) (hchildren : PyDict.Unique children)
      (hall : ∀ p ∈ children, Unique p.2) : Unique (.mk sets children)

variable {n : Node}

theorem Unique.children_unique (h : n.Unique) : PyDict.Unique n.children := by
  cases h with
  | mk _ hchildren _ => exact hchildren

theorem Unique.child {c : Node} {name : String} (h : n.Unique)
    (hc : PyDict.get? n.children name = some c) : c.Unique := by
  cases h with
  | mk _ _ hall => exact hall (name, c) (PyDict.mem_of_get? hc)

theorem unique_empty : empty.Unique :=
  .mk PyDict.unique_nil PyDict.unique_nil fun _ h => nomatch h

theorem Unique.addChild (h : n.Unique) (name : String) : (n.addChild name).Unique := by
  cases h with
  | mk hsets hchildren hall =>
    refine .mk hsets (hchildren.setDefault name empty) fun p hp => ?_
    rw [children, PyDict.setDefault] at hp
    split at hp
    · exact hall p hp
    · rcases List.mem_append.mp hp with hp | hp
      · exact hall p hp
      · obtain rfl : p = (name, empty) := by simpa using hp
        exact unique_empty

theorem Unique.putSet (h : n.Unique) (key : String) (values : List String) :
    (n.putSet key values).Unique := by
  cases h with
  | mk hsets hchildren hall => exact .mk (hsets.set key values) hchildren hall

theorem Unique.update {f : Node → Node} (hf : ∀ n : Node, n.Unique → (f n).Unique) :
    ∀ (path : List String) {n : Node}, n.Unique → (Node.update f path n).Unique
  | [], n, h => hf n h
  | name :: path, n, h => by
    rw [Node.update]
    rcases hc : PyDict.get? n.children name with _ | c
    · exact h
    · have hcu : (Node.update f path c).Unique := Unique.update hf path (h.child hc)
      cases h with
      | mk hsets hchildren hall =>
        refine .mk hsets (hchildren.set name _) fun p hp => ?_
        rcases PyDict.mem_set hp with rfl | hp
        · exact hcu
        · exact hall p hp

end Node

/-! ## Lines -/

/-- `"[^"]*"|\S+`. -/
def reToken : Regex.Re :=
  .alt (.seq (.chr (· == '\"')) (.seq (.many (· != '\"') 0 none) (.chr (· == '\"'))))
    (.many (fun c => !isSpace c) 1 none)

/-- A token without the quotes around it. -/
def unquote (t : List Char) : List Char :=
  if t.head? = some '\"' ∧ t.getLast? = some '\"' ∧ 2 ≤ t.length then t.tail.dropLast else t

def fortiTokens (s : String) : List String :=
  (Regex.findall reToken s.toList).map fun t => String.ofList (unquote t)

/-- `s[n:].strip().strip('"')`: the name after a keyword. -/
def blockName (s : String) (n : ℕ) : String :=
  let name := stripChars (s.toList.drop n)
  String.ofList ((name.dropWhile (· == '\"')).rdropWhile (· == '\"'))

/-- One line of the loop of `_forti_tree`: the tree and the path of the current node. -/
def treeLine (st : Node × List String) (raw : String) : Node × List String :=
  let (root, path) := st
  let s := strip raw
  let low := lower s
  if s = "" ∨ startsWith s "#" then st
  else if startsWith low "config " then
    let name := blockName s 7
    (root.update (Node.addChild name) path, path ++ [name])
  else if startsWith low "edit " then
    let key := blockName s 5
    (root.update (Node.addChild key) path, path ++ [key])
  else if low = "next" ∨ low = "end" then (root, path.dropLast)
  else if startsWith low "set " then
    match fortiTokens s with
    | _ :: key :: values => (root.update (Node.putSet (lower key) values) path, path)
    | _ => st
  else st

/-- `_forti_tree` after the text was split into lines. -/
def fortiTreeLines (lines : List String) : Node :=
  (lines.foldl treeLine (Node.empty, [])).1

def fortiTree (content : String) : Node := fortiTreeLines (splitlines content)

def fortiGet (root : Node) (path : String) : Option Node := PyDict.get? root.children path

def fortiSet1 (node : Node) (key default : String) : String :=
  match PyDict.get? node.sets key with
  | some (v :: _) => v
  | _ => default

/-- The items of a section, `_forti_get(root, path)["children"].items()`. -/
def fortiItems (root : Node) (path : String) : PyDict.Dict Node :=
  ((fortiGet root path).map Node.children).getD []

theorem treeLine_unique {st : Node × List String} (h : st.1.Unique) (raw : String) :
    (treeLine st raw).1.Unique := by
  obtain ⟨root, path⟩ := st
  unfold treeLine
  dsimp only
  split_ifs
  · exact h
  · exact Node.Unique.update (fun n hn => hn.addChild _) path h
  · exact Node.Unique.update (fun n hn => hn.addChild _) path h
  · exact h
  · split
    · exact Node.Unique.update (fun n hn => hn.putSet _ _) path h
    · exact h
  · exact h

theorem fortiTreeLines_unique (lines : List String) : (fortiTreeLines lines).Unique := by
  have hrun : ∀ (lines : List String) (st : Node × List String), st.1.Unique →
      (lines.foldl treeLine st).1.Unique := by
    intro lines
    induction lines with
    | nil => exact fun st h => h
    | cons raw lines ih => exact fun st h => ih _ (treeLine_unique h raw)
  exact hrun lines _ Node.unique_empty

theorem unique_fortiItems {root : Node} (h : root.Unique) (path : String) :
    PyDict.Unique (fortiItems root path) := by
  rw [fortiItems, fortiGet]
  rcases hs : PyDict.get? root.children path with _ | n
  · exact PyDict.unique_nil
  · exact (h.child hs).children_unique

end SentinelNet.FwAnalyzers
