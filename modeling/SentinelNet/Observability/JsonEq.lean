import SentinelNet.Observability.Events

/-!
# Equality of JSON values

The texts that `json.dumps` writes for two values are the same exactly if the values are, so the
model keeps the value for the text and compares values.
-/

namespace SentinelNet.Observability

mutual

def Json.same (v w : Json) : Bool :=
  match v, w with
  | .null, .null => true
  | .bool b, .bool c => b = c
  | .int n, .int m => n = m
  | .float q, .float r => q = r
  | .str s, .str t => s = t
  | .arr vs, .arr ws => sameItems vs ws
  | .obj kvs, .obj kws => sameMembers kvs kws
  | _, _ => false
termination_by structural v

def sameItems (vs ws : List Json) : Bool :=
  match vs, ws with
  | [], [] => true
  | v :: vs, w :: ws => v.same w && sameItems vs ws
  | _, _ => false
termination_by structural vs

def sameMembers (kvs kws : List (String × Json)) : Bool :=
  match kvs, kws with
  | [], [] => true
  | kv :: kvs, kw :: kws => sameMember kv kw && sameMembers kvs kws
  | _, _ => false
termination_by structural kvs

def sameMember (kv kw : String × Json) : Bool :=
  match kv with
  | (k, v) => k = kw.1 && v.same kw.2
termination_by structural kv

end

mutual

theorem Json.eq_of_same : ∀ v w : Json, v.same w = true → v = w
  | .null, w, h => by cases w <;> simp_all [Json.same]
  | .bool b, w, h => by cases w <;> simp_all [Json.same]
  | .int n, w, h => by cases w <;> simp_all [Json.same]
  | .float q, w, h => by cases w <;> simp_all [Json.same]
  | .str s, w, h => by cases w <;> simp_all [Json.same]
  | .arr vs, w, h => by
    cases w with
    | arr ws =>
      have hitems : sameItems vs ws = true := by simpa [Json.same] using h
      rw [eq_of_sameItems vs ws hitems]
    | _ => simp [Json.same] at h
  | .obj kvs, w, h => by
    cases w with
    | obj kws =>
      have hmembers : sameMembers kvs kws = true := by simpa [Json.same] using h
      rw [eq_of_sameMembers kvs kws hmembers]
    | _ => simp [Json.same] at h

theorem eq_of_sameItems : ∀ vs ws : List Json, sameItems vs ws = true → vs = ws
  | [], ws, h => by cases ws <;> simp_all [sameItems]
  | v :: vs, ws, h => by
    cases ws with
    | nil => simp [sameItems] at h
    | cons w ws =>
      have hboth : v.same w = true ∧ sameItems vs ws = true := by simpa [sameItems] using h
      rw [Json.eq_of_same v w hboth.1, eq_of_sameItems vs ws hboth.2]

theorem eq_of_sameMembers : ∀ kvs kws : List (String × Json), sameMembers kvs kws = true → kvs = kws
  | [], kws, h => by cases kws <;> simp_all [sameMembers]
  | kv :: kvs, kws, h => by
    cases kws with
    | nil => simp [sameMembers] at h
    | cons kw kws =>
      have hboth : sameMember kv kw = true ∧ sameMembers kvs kws = true := by
        simpa [sameMembers] using h
      rw [eq_of_sameMember kv kw hboth.1, eq_of_sameMembers kvs kws hboth.2]

theorem eq_of_sameMember : ∀ kv kw : String × Json, sameMember kv kw = true → kv = kw
  | (k, v), (k', w), h => by
    have hboth : k = k' ∧ v.same w = true := by simpa [sameMember] using h
    rw [hboth.1, Json.eq_of_same v w hboth.2]

end

mutual

theorem Json.same_self : ∀ v : Json, v.same v = true
  | .null => rfl
  | .bool b => by simp [Json.same]
  | .int n => by simp [Json.same]
  | .float q => by simp [Json.same]
  | .str s => by simp [Json.same]
  | .arr vs => by simpa [Json.same] using sameItems_self vs
  | .obj kvs => by simpa [Json.same] using sameMembers_self kvs

theorem sameItems_self : ∀ vs : List Json, sameItems vs vs = true
  | [] => rfl
  | v :: vs => by simp [sameItems, Json.same_self v, sameItems_self vs]

theorem sameMembers_self : ∀ kvs : List (String × Json), sameMembers kvs kvs = true
  | [] => rfl
  | kv :: kvs => by simp [sameMembers, sameMember_self kv, sameMembers_self kvs]

theorem sameMember_self : ∀ kv : String × Json, sameMember kv kv = true
  | (k, v) => by simp [sameMember, Json.same_self v]

end

instance : DecidableEq Json := fun v w =>
  decidable_of_iff (v.same w = true) ⟨Json.eq_of_same v w, fun h => h ▸ Json.same_self v⟩

example : Json.arr [.int 1] ≠ Json.arr [.float 1] := by decide

end SentinelNet.Observability
