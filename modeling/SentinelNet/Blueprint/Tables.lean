import SentinelNet.Lib.FreshNames
import SentinelNet.Observability.JsonEq
import SentinelNet.Probes.Registry

/-!
# Locations and links

The Network Blueprint keeps the locations of all organizations in one table and the links between
them in another one.  `services/blueprint_model.py` has the rules, without any input or output.

* `linkId`, `orgView`, `freeId`: the id of a link, what an organization sees, and the id of a new
  location.
* `freeId_not_mem`: the id of a new location is free.
-/

namespace SentinelNet.Blueprint

open Observability PyDict PyText

/-! ## Rows -/

/-- A row of `locations`. -/
structure Location where
  org : String
  name : String
  role : String
  subnets : List String
  probe : Json
  gateway : String
  deriving DecidableEq

/-- A row of `links`. -/
structure Link where
  org : String
  a : String
  b : String
  kind : String
  note : String
  deriving DecidableEq

def kinds : List String := ["vpn", "wan", "mpls", "lan"]

def roles : List String := ["hq", "branch", "datacenter", "warehouse", "other"]

def maxDraftOps : ℕ := 2000

def maxName : ℕ := 100

def maxNote : ℕ := 500

/-! ## Ids -/

/-- `sorted((a, b))`. -/
def ordered (a b : String) : String × String := if b < a then (b, a) else (a, b)

def linkId (a b kind : String) : String :=
  (ordered a b).1 ++ "--" ++ (ordered a b).2 ++ "--" ++ kind

/-- The ids that are tried for a new location: the base, and then with a number from two on. -/
def candidateId (base : String) : ℕ → String
  | 0 => base
  | n + 1 => base ++ "-" ++ str (n + 2)

def freeId (base : String) (taken : List String) : String :=
  FreshNames.firstFree (candidateId base) taken

def keys {α : Type} (d : Dict α) : List String := d.map Prod.fst

/-! ## Views -/

/-- The tables of one organization. -/
structure View where
  locations : Dict Location
  links : Dict Link

def orgView (locations : Dict Location) (links : Dict Link) (org : String) : View where
  locations := locations.filter fun e => e.2.org = org
  links := links.filter fun e => e.2.org = org

/-- Every id is there once, and every link is under its own id and joins two different locations of
its organization, in the order of their ids. -/
structure Linked (locations : Dict Location) (links : Dict Link) : Prop where
  locationIds : Unique locations
  linkIds : Unique links
  key : ∀ k l, get? links k = some l → k = linkId l.a l.b l.kind
  order : ∀ k l, get? links k = some l → l.a < l.b
  first : ∀ k l, get? links k = some l → ∃ v, get? locations l.a = some v ∧ v.org = l.org
  second : ∀ k l, get? links k = some l → ∃ v, get? locations l.b = some v ∧ v.org = l.org

/-! ## The id of a new location -/

theorem str_injective : Function.Injective str := fun n m h => by
  have hnat := congrArg nat h
  rwa [nat_str, nat_str] at hnat

theorem toList_candidateId (base : String) (n : ℕ) :
    (candidateId base (n + 1)).toList = base.toList ++ '-' :: (str (n + 2)).toList := by
  simp [candidateId]

theorem candidateId_injective (base : String) : Function.Injective (candidateId base) := by
  have hne (n : ℕ) : candidateId base 0 ≠ candidateId base (n + 1) := by
    intro h
    have hlist := congrArg String.toList h
    rw [toList_candidateId] at hlist
    exact absurd hlist (by simp [candidateId])
  intro n m h
  cases n with
  | zero =>
    cases m with
    | zero => rfl
    | succ m => exact absurd h (hne m)
  | succ n =>
    cases m with
    | zero => exact absurd h.symm (hne n)
    | succ m =>
      have hlist := congrArg String.toList h
      rw [toList_candidateId, toList_candidateId] at hlist
      have hstr : str (n + 2) = str (m + 2) :=
        String.toList_injective (List.cons_injective (List.append_cancel_left hlist))
      have hnm := str_injective hstr
      omega

/-- The id of a new location is free. -/
theorem freeId_not_mem (base : String) (taken : List String) : freeId base taken ∉ taken :=
  FreshNames.firstFree_not_mem (candidateId_injective base) taken

/-! ## The order of two ids -/

theorem ordered_of_lt {a b : String} (h : a < b) : ordered a b = (a, b) := by
  rw [ordered, if_neg (lt_asymm h)]

theorem ordered_comm (a b : String) : ordered a b = ordered b a := by
  rcases lt_trichotomy a b with h | h | h
  · rw [ordered_of_lt h, ordered, if_pos h]
  · rw [h]
  · rw [ordered_of_lt h, ordered, if_pos h]

theorem ordered_lt {a b : String} (h : a ≠ b) : (ordered a b).1 < (ordered a b).2 := by
  rw [ordered]
  split
  · next hba => exact hba
  · next hba => exact lt_of_le_of_ne (not_lt.mp hba) h

theorem linkId_ordered (a b kind : String) :
    linkId (ordered a b).1 (ordered a b).2 kind = linkId a b kind := by
  have hidem : ordered (ordered a b).1 (ordered a b).2 = ordered a b := by
    rcases lt_trichotomy a b with h | h | h
    · rw [ordered_of_lt h, ordered_of_lt h]
    · simp [h, ordered]
    · rw [ordered_comm a b, ordered_of_lt h, ordered_of_lt h]
  rw [linkId, linkId, hidem]

end SentinelNet.Blueprint
