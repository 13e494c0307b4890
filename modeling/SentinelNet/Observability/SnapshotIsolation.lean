import SentinelNet.Observability.Retention

/-!
# Snapshots of tenants

`_from_api_observations` compares a snapshot with the latest earlier one of the same address and
kind.  The query does not ask for the tenant, while a device of the inventory is an address of a
tenant: two customers may each have a `192.168.1.1`.

* `apiRead`, `changesFor`: what a cycle reads, and the changes it finds for a tenant.
* `snapshotsApart_iff`: when they are those of the tenant.
* `snapshots_mixed`: two customers with one address.
-/

namespace SentinelNet.Observability

open PyDict PyText

/-! ## Changes of a tenant -/

def snapshotsOf (tenant : String) (rows : List (Stored ApiRow)) : List (Stored ApiRow) :=
  rows.filter fun r => r.data.tenant = tenant

def apiRead (t : Table ApiRow) (cursor : ℕ) : List (Stored ApiRow) :=
  (t.rows.filter fun r => cursor < r.id).take maxRowsPerSource

/-- An event for something that has changed. -/
def Event.isChange (e : Event) : Bool :=
  e.eventType = "device.change" || e.eventType = "interface.change"

def changesFor (now : ℤ) (tenant : String) (rows read : List (Stored ApiRow)) : List Event :=
  (read.flatMap (rowEvents apiSource now rows)).filter fun e => e.isChange && e.tenant = tenant

/-- The snapshot that a snapshot is compared with. -/
def comparedWith (rows : List (Stored ApiRow)) (r : Stored ApiRow) : Option ApiRow :=
  if r.apiRow.silent then none else previousSnapshot rows r

/-- No snapshot of the tenant is compared with one of another tenant, and its changes are those that
are found in a table with its rows alone. -/
structure SnapshotsApart (t : Table ApiRow) (tenant : String) : Prop where
  compared : ∀ r ∈ t.rows, r.data.tenant = tenant → ∀ p ∈ comparedWith t.rows r, p.tenant = tenant
  emitted : ∀ now cursor, changesFor now tenant t.rows (apiRead t cursor) =
    changesFor now tenant (snapshotsOf tenant t.rows) (snapshotsOf tenant (apiRead t cursor))

/-- Two rows are of one address and one kind. -/
def SameSubject (r r' : Stored ApiRow) : Prop :=
  r'.data.deviceIp = r.data.deviceIp ∧ r'.data.kind = r.data.kind

/-- No other tenant has an earlier snapshot of an address and a kind than one of the tenant's. -/
def Undisturbed (t : Table ApiRow) (tenant : String) : Prop :=
  ∀ r ∈ t.rows, r.data.tenant = tenant → r.apiRow.silent = false →
    ∀ p ∈ t.rows, SameSubject r p → p.data.tenant ≠ tenant → r.id < p.id

/-! ## The previous snapshot -/

theorem getLast?_filter {α : Type*} {l : List α} {p : α → Bool} {x : α}
    (h : l.getLast? = some x) (hx : p x) : (l.filter p).getLast? = some x := by
  obtain ⟨front, rfl⟩ := List.getLast?_eq_some_iff.mp h
  rw [List.filter_append, List.filter_cons_of_pos hx, List.filter_nil, List.getLast?_concat]

/-- The earlier snapshots of the address and the kind of a snapshot. -/
def earlier (rows : List (Stored ApiRow)) (r : Stored ApiRow) : List (Stored ApiRow) :=
  rows.filter fun r' =>
    r'.data.deviceIp = r.data.deviceIp ∧ r'.data.kind = r.data.kind ∧ r'.id < r.id

theorem previousSnapshot_eq (rows : List (Stored ApiRow)) (r : Stored ApiRow) :
    previousSnapshot rows r = (earlier rows r).getLast?.map Stored.apiRow := List.getLast?_map

variable {rows : List (Stored ApiRow)} {r : Stored ApiRow}

theorem mem_earlier {p : Stored ApiRow} :
    p ∈ earlier rows r ↔ p ∈ rows ∧ SameSubject r p ∧ p.id < r.id := by
  rw [earlier, List.mem_filter, decide_eq_true_iff, SameSubject, and_assoc]

variable {t : Table ApiRow}

theorem le_previousSnapshot {p : Stored ApiRow} (hp : p ∈ earlier t.rows r) :
    ∃ q ∈ earlier t.rows r, previousSnapshot t.rows r = some q.apiRow ∧ p.id ≤ q.id := by
  have hasc : (earlier t.rows r).Pairwise fun r r' => r.id < r'.id := t.ascending.filter _
  obtain ⟨front, q, hsplit⟩ := (List.eq_nil_or_concat _).resolve_left (List.ne_nil_of_mem hp)
  rw [List.concat_eq_append] at hsplit
  have hlast : previousSnapshot t.rows r = some q.apiRow := by
    rw [previousSnapshot_eq, hsplit, List.getLast?_concat, Option.map_some]
  have hq : q ∈ earlier t.rows r := by
    rw [hsplit]
    exact List.mem_append_right _ (List.mem_singleton_self q)
  refine ⟨q, hq, hlast, ?_⟩
  rw [hsplit] at hp hasc
  rcases List.mem_append.mp hp with hfront | hp
  · exact ((List.pairwise_append.mp hasc).2.2 p hfront q (List.mem_singleton_self q)).le
  · rw [List.mem_singleton.mp hp]

variable {tenant : String}

theorem previousSnapshot_snapshotsOf (h : ∀ p ∈ previousSnapshot rows r, p.tenant = tenant) :
    previousSnapshot (snapshotsOf tenant rows) r = previousSnapshot rows r := by
  have hcomm : earlier (snapshotsOf tenant rows) r = snapshotsOf tenant (earlier rows r) :=
    List.filter_comm ..
  rw [previousSnapshot_eq] at h
  rw [previousSnapshot_eq, previousSnapshot_eq, hcomm]
  cases hlast : (earlier rows r).getLast? with
  | none =>
    rw [List.getLast?_eq_none_iff.mp hlast]
    rfl
  | some q =>
    rw [hlast] at h
    rw [snapshotsOf, getLast?_filter hlast (decide_eq_true (h q.apiRow rfl))]

/-! ## Changes -/

theorem tenant_of_mem_rowEvents {now : ℤ}
    {e : Event} (h : e ∈ rowEvents apiSource now rows r) : e.tenant = r.data.tenant := by
  have hevents : rowEvents apiSource now rows r =
      apiEvents now (previousSnapshot rows r) r.apiRow := (apiEvents_eq_cons now rows r).symm
  rw [hevents, apiEvents] at h
  split at h
  · rw [List.mem_singleton.mp h]
    rfl
  · rw [List.cons_append, List.mem_cons, List.mem_append] at h
    rcases h with rfl | h | h
    · rfl
    · cases hprev : previousSnapshot rows r with
      | none =>
        rw [hprev] at h
        cases h
      | some prev =>
        rw [hprev] at h
        obtain ⟨c, -, rfl⟩ := List.mem_map.mp h
        rfl
    · obtain ⟨p, -, rfl⟩ := List.mem_map.mp h
      rfl

theorem rowEvents_congr {now : ℤ} {rows' : List (Stored ApiRow)}
    (h : r.apiRow.silent = false → previousSnapshot rows r = previousSnapshot rows' r) :
    rowEvents apiSource now rows r = rowEvents apiSource now rows' r := by
  have hevents : ∀ rows, rowEvents apiSource now rows r =
      apiEvents now (previousSnapshot rows r) r.apiRow := fun rows =>
    (apiEvents_eq_cons now rows r).symm
  rw [hevents, hevents]
  cases hsilent : r.apiRow.silent with
  | true => rw [apiEvents, apiEvents, if_pos hsilent, if_pos hsilent]
  | false => rw [h hsilent]

theorem changesFor_eq {now : ℤ} {read : List (Stored ApiRow)}
    (h : ∀ r ∈ read, r.data.tenant = tenant → ∀ p ∈ comparedWith rows r, p.tenant = tenant) :
    changesFor now tenant rows read =
      changesFor now tenant (snapshotsOf tenant rows) (snapshotsOf tenant read) := by
  induction read with
  | nil => rfl
  | cons r read ih =>
    have ih := ih (List.forall_mem_cons.mp h).2
    rw [changesFor, List.flatMap_cons, List.filter_append]
    by_cases hr : r.data.tenant = tenant
    · have hsame : rowEvents apiSource now (snapshotsOf tenant rows) r =
          rowEvents apiSource now rows r := by
        refine rowEvents_congr fun hsilent => previousSnapshot_snapshotsOf fun p hp => ?_
        refine h r List.mem_cons_self hr p ?_
        rw [comparedWith, if_neg (by simp [hsilent])]
        exact hp
      have hcons : snapshotsOf tenant (r :: read) = r :: snapshotsOf tenant read :=
        List.filter_cons_of_pos (decide_eq_true hr)
      rw [hcons, changesFor, List.flatMap_cons, List.filter_append, hsame]
      exact congrArg _ ih
    · have hnone : (rowEvents apiSource now rows r).filter
          (fun e => e.isChange && e.tenant = tenant) = [] := by
        refine List.filter_eq_nil_iff.mpr fun e he => ?_
        simp [tenant_of_mem_rowEvents he, hr]
      have hcons : snapshotsOf tenant (r :: read) = snapshotsOf tenant read :=
        List.filter_cons_of_neg (by simpa using hr)
      rw [hnone, List.nil_append, hcons]
      exact ih

/-! ## The condition -/

theorem previousSnapshot_eq_some {p : ApiRow}
    (h : previousSnapshot rows r = some p) : ∃ q ∈ earlier rows r, q.apiRow = p := by
  rw [previousSnapshot_eq] at h
  obtain ⟨q, hq, heq⟩ := Option.map_eq_some_iff.mp h
  exact ⟨q, List.mem_of_getLast? hq, heq⟩

theorem snapshotsApart_of_undisturbed (h : Undisturbed t tenant) : SnapshotsApart t tenant := by
  have hcompared : ∀ r ∈ t.rows, r.data.tenant = tenant →
      ∀ p ∈ comparedWith t.rows r, p.tenant = tenant := by
    intro r hr htenant p hp
    rw [comparedWith] at hp
    split at hp
    · exact absurd hp (Option.not_mem_none p)
    · next hsilent =>
      obtain ⟨q, hq, rfl⟩ := previousSnapshot_eq_some hp
      obtain ⟨hmem, hsame, hid⟩ := mem_earlier.mp hq
      by_contra hother
      have hlater := h r hr htenant (Bool.eq_false_of_not_eq_true hsilent) q hmem hsame hother
      exact absurd hlater (Nat.lt_asymm hid)
  refine ⟨hcompared, fun now cursor => changesFor_eq fun r hr => hcompared r ?_⟩
  exact (List.mem_filter.mp (List.mem_of_mem_take hr)).1

/-- The first snapshot of a tenant after one of another tenant is compared with one that is not the
tenant's. -/
theorem undisturbed_of_snapshotsApart (h : SnapshotsApart t tenant) : Undisturbed t tenant := by
  intro r hr htenant hsilent p hp hsame hother
  by_contra hlt
  -- induction on the number of the snapshot: an earlier one of the tenant is there
  induction hn : r.id using Nat.strong_induction_on generalizing r with
  | _ n ih =>
    have hids : (t.rows.map Stored.id).Nodup := List.pairwise_map.mpr (t.ascending.imp Nat.ne_of_lt)
    have hne : p.id ≠ r.id := fun hid =>
      hother (List.inj_on_of_nodup_map hids hp hr hid ▸ htenant)
    have hearlier : p ∈ earlier t.rows r := mem_earlier.mpr ⟨hp, hsame, by omega⟩
    obtain ⟨q, hq, hprev, hle⟩ := le_previousSnapshot hearlier
    obtain ⟨hmem, hsubject, hid⟩ := mem_earlier.mp hq
    have hown : q.data.tenant = tenant := by
      refine h.compared r hr htenant q.apiRow ?_
      rw [comparedWith, if_neg (by simp [hsilent])]
      exact hprev
    have hquiet : q.apiRow.silent = false := by
      rw [← hsilent, ApiRow.silent, ApiRow.silent]
      exact congrArg (fun kind => decide (kind = "snmp_silent")) hsubject.2
    exact ih q.id (hn ▸ hid) q hmem hown hquiet
      ⟨hsame.1.trans hsubject.1.symm, hsame.2.trans hsubject.2.symm⟩ (by omega) rfl

/-- The changes of a tenant come from its own snapshots exactly if no other tenant has an earlier
snapshot of an address and a kind than one of the tenant's. -/
theorem snapshotsApart_iff (t : Table ApiRow) (tenant : String) :
    SnapshotsApart t tenant ↔ Undisturbed t tenant :=
  ⟨undisturbed_of_snapshotsApart, snapshotsApart_of_undisturbed⟩

/-! ## Two customers -/

def nameSnapshot (tenant name : String) : ApiRow :=
  ⟨0, 0, tenant, "192.168.1.1", "system", some (.obj [("hostname", .str name)])⟩

def twoCustomers : Table ApiRow :=
  (Table.empty.insert 100 (nameSnapshot "acme" "fw-acme") 0 0).insert 160
    (nameSnapshot "beta" "fw-beta") 1 0

/-- The first poll of `beta` reports a change of its host name, from that of `acme`. -/
theorem snapshots_mixed : ¬ SnapshotsApart twoCustomers "beta" ∧
    (changesFor 200 "beta" twoCustomers.rows (apiRead twoCustomers 0)).map (fun e => e.attrs) =
      [[("kind", .str "system"), ("field", .str "hostname"), ("before", .str "fw-acme"),
        ("after", .str "fw-beta")]] := by
  refine ⟨fun h => ?_, rfl⟩
  have htenant := h.compared ⟨2, 160, nameSnapshot "beta" "fw-beta", 1, 0⟩
    (List.mem_cons_of_mem _ List.mem_cons_self) rfl
    { nameSnapshot "acme" "fw-acme" with id := 1, ts := 100 } rfl
  exact absurd htenant (by decide)

end SentinelNet.Observability
