import SentinelNet.RouteTable.LineEffects

/-!
# Lines and the networks they are attributed to

What the reader holds after some entries is, as far as later lines can tell, the network that waits
and the network of the last row.  From this the rows of an entry are its own rows exactly when its
lines are attributed to it, and a row that is lost is never made up for by a later one, so an output
as a whole is read right exactly when each of its entries is.

* `fold_below`: the lines below a wrapped network.
* `entry_spec`: the lines of an entry.
* `parseIosRoutes_eq_iff`: a whole output.
-/

namespace SentinelNet.RouteTable

open PyText

abbrev State := List Row × Option Row

/-- The source of the network that waits. -/
def pendingSource (st : State) : Option Source := st.2.map Row.source

def lastSource (st : State) : Option Source := st.1.getLast?.map Row.source

/-- A network that waits has no next hop of its own. -/
def Waiting (st : State) : Prop := ∀ p ∈ st.2, p = { network := p.network, type := p.type }

/-- The lines of a text add these rows to those of the state, and the network that waits is this. -/
def Reads (st : State) (lines : List (List Char)) (out : List Row) (pending : Option Row) : Prop :=
  lines.foldl routeLine st = (st.1 ++ out, pending)

/-! ## Rows and their sources -/

theorem Hop.row_eq_iff (hop : Hop) {base base' : Row} :
    hop.row base = hop.row base' ↔ base.source = base'.source := by
  simp [Hop.row, Row.source]

theorem directRow_eq_iff (i : IntfName) {p : Row} (hp : p = { network := p.network, type := p.type })
    (h : EntryHead) : directRow i p = directRow i h.row ↔ p.source = h.source := by
  rw [hp]
  simp [directRow, Row.source, EntryHead.source, EntryHead.row]

theorem WrappedHop.source_row (w : WrappedHop) (base : Row) : (w.row base).source = base.source := by
  cases w <;> rfl

theorem lastSource_append (st : State) (r : Row) (p : Option Row) :
    lastSource (st.1 ++ [r], p) = some r.source := by
  rw [lastSource, List.getLast?_concat, Option.map_some]

theorem EntryHead.source_row (h : EntryHead) : h.row.source = h.source := rfl

/-! ## The lines below a network -/

theorem attributedTo_iff {st : State} (hw : Waiting st) (h : EntryHead) (w : WrappedHop) :
    w.AttributedTo h.source (pendingSource st) (lastSource st) ↔
      ∃ base, w.base st = some base ∧ w.row base = w.row h.row := by
  cases w with
  | via n hop =>
    have hmap : (pendingSource st).or (lastSource st) =
        (st.2.or st.1.getLast?).map Row.source := by
      rw [pendingSource, lastSource, Option.map_or]
    rw [WrappedHop.AttributedTo, hmap, WrappedHop.base, Option.map_eq_some_iff]
    simp only [WrappedHop.row, hop.row_eq_iff, h.source_row]
  | direct n i =>
    rw [WrappedHop.AttributedTo, pendingSource, WrappedHop.base, Option.map_eq_some_iff]
    refine exists_congr fun p => and_congr_right fun hp => ?_
    exact (directRow_eq_iff i (hw p hp) h).symm

/-- The lines below a network: they add at most a row each, and the rows of the network exactly when
they are attributed to it. -/
theorem fold_below (h : EntryHead) : ∀ (hops : List WrappedHop) (st : State), Waiting st →
    ∃ out, Reads st (hops.map WrappedHop.line) out st.2 ∧ out.length ≤ hops.length ∧
      (out = hops.map (WrappedHop.row h.row) ↔
        HopsAttributed h.source (pendingSource st) (lastSource st) hops)
  | [], st, _ => ⟨[], by simp [Reads], le_refl _, by simp [HopsAttributed]⟩
  | w :: hops, st, hw => by
    have hline := routeLine_below st w
    have hiff := attributedTo_iff hw h w
    rcases hb : w.base st with _ | base
    · rw [hb] at hline
      obtain ⟨out, hreads, hlen, -⟩ := fold_below h hops st hw
      refine ⟨out, ?_, Nat.le_succ_of_le hlen, ?_⟩
      · rw [Reads, List.map_cons, List.foldl_cons, hline]
        exact hreads
      · have hnot : ¬ w.AttributedTo h.source (pendingSource st) (lastSource st) := by
          rw [hiff, hb]
          simp
        constructor
        · intro hout
          rw [hout, List.length_map, List.length_cons] at hlen
          omega
        · exact fun hattr => absurd hattr.1 hnot
    · rw [hb] at hline
      set st' : State := (st.1 ++ [w.row base], st.2) with hst'
      obtain ⟨out, hreads, hlen, hout⟩ := fold_below h hops st' hw
      have hrow : w.AttributedTo h.source (pendingSource st) (lastSource st) ↔
          w.row base = w.row h.row := by
        rw [hiff, hb]
        simp
      refine ⟨w.row base :: out, ?_, Nat.succ_le_succ hlen, ?_⟩
      · rw [Reads, List.map_cons, List.foldl_cons, hline]
        rw [Reads] at hreads
        rw [hreads, hst']
        simp
      · rw [List.map_cons, List.cons.injEq, HopsAttributed, hrow]
        refine and_congr_right fun hr => ?_
        have hlast : lastSource st' = some h.source := by
          rw [hst', lastSource_append, hr, w.source_row, h.source_row]
        rw [hout, hlast]
        rfl

theorem lastSource_map (h : EntryHead) (st : State) (hops : List WrappedHop) (p : Option Row) :
    lastSource (st.1 ++ hops.map (WrappedHop.row h.row), p) =
      lastAfter h.source (lastSource st) hops := by
  rcases List.eq_nil_or_concat hops with rfl | ⟨hops', w, rfl⟩
  · simp [lastAfter, lastSource]
  · rw [List.concat_eq_append, List.map_append, ← List.append_assoc]
    rw [lastAfter, if_neg (by simp)]
    exact (lastSource_append (_, p) _ p).trans (congrArg some (w.source_row h.row))

theorem hopsAttributed_of_pending (s : Source) :
    ∀ (last : Option Source) (hops : List WrappedHop), HopsAttributed s (some s) last hops
  | _, [] => trivial
  | _, .via _ _ :: hops => ⟨rfl, hopsAttributed_of_pending s (some s) hops⟩
  | _, .direct _ _ :: hops => ⟨rfl, hopsAttributed_of_pending s (some s) hops⟩

theorem hopsAttributed_of_last (s : Source) : ∀ more : List (ℕ × Hop),
    HopsAttributed s none (some s) (more.map fun m => .via m.1 m.2)
  | [] => trivial
  | _ :: more => ⟨rfl, hopsAttributed_of_last s more⟩

/-! ## Entries -/

/-- The lines of an entry add at most its number of rows, and its rows exactly when they are
attributed to it; then what later lines can tell of the state is as `RouteEntry.after` says. -/
def ReadsEntry (st : State) (e : RouteEntry) (out : List Row) (p : Option Row) : Prop :=
  Reads st e.lines out p ∧ (∀ q ∈ p, q = { network := q.network, type := q.type }) ∧
    out.length ≤ e.rows.length ∧
    (out = e.rows ↔ e.Attributed (pendingSource st) (lastSource st)) ∧
    (out = e.rows → e.after (pendingSource st) (lastSource st) =
      (p.map Row.source, lastSource (st.1 ++ out, p)))

theorem connected_spec (h : EntryHead) (gap : ℕ) (i : IntfName) (st : State) (hw : Waiting st) :
    ∃ out p, ReadsEntry st (.connected h gap i) out p := by
  have hline := routeLine_connected h gap i st
  have hrows : (RouteEntry.connected h gap i).rows = [directRow i h.row] := rfl
  rcases hp : st.2 with _ | pending
  · have hnone : pendingSource st = none := by rw [pendingSource, hp, Option.map_none]
    rw [hp] at hline
    cases hg : h.glued with
    | true =>
      refine ⟨[], none, ?_, by simp, Nat.zero_le _, ?_, fun hout => absurd hout (by simp [hrows])⟩
      · rw [Reads, RouteEntry.lines, List.foldl_cons, hline]
        simp [hg, ← hp]
      · rw [hrows, hnone, RouteEntry.Attributed, hg]
        simp
    | false =>
      refine ⟨[directRow i h.row], none, ?_, by simp, le_refl _, ?_, fun _ => ?_⟩
      · rw [Reads, RouteEntry.lines, List.foldl_cons, hline]
        simp [hg]
      · rw [hrows, hnone, RouteEntry.Attributed, hg]
        simp
      · rw [RouteEntry.after, hnone, lastSource_append]
        rfl
  · have hsome : pendingSource st = some pending.source := by
      rw [pendingSource, hp, Option.map_some]
    rw [hp] at hline
    have hiff := directRow_eq_iff i (hw pending hp) h
    refine ⟨[directRow i pending], some pending, ?_, ?_, le_refl _, ?_, fun hout => ?_⟩
    · rw [Reads, RouteEntry.lines, List.foldl_cons, hline]
      rfl
    · rintro q hq
      exact hw q (hp.trans hq)
    · rw [hrows, hsome, RouteEntry.Attributed, List.cons.injEq, and_iff_left rfl, hiff]
    · have hsource : pending.source = h.source := hiff.mp (List.cons.inj hout).1
      rw [RouteEntry.after, hsome, lastSource_append, ← hsource]
      rfl

theorem via_spec (h : EntryHead) (gap : ℕ) (hop : Hop) (more : List (ℕ × Hop)) (st : State)
    (hw : Waiting st) : ∃ out p, ReadsEntry st (.via h gap hop more) out p := by
  have hline := routeLine_via h gap hop st
  set hops : List WrappedHop := more.map fun m => .via m.1 m.2 with hhops
  have hlines : (RouteEntry.via h gap hop more).lines =
      (h.text ++ blanks (gap + 1) ++ hop.text) :: hops.map WrappedHop.line := by
    rw [hhops, List.map_map]
    rfl
  have hrows : (RouteEntry.via h gap hop more).rows =
      hop.row h.row :: hops.map (WrappedHop.row h.row) := by
    rw [hhops, List.map_map]
    rfl
  cases hg : h.glued with
  | true =>
    rw [hg, if_pos rfl] at hline
    obtain ⟨out, hreads, hlen, -⟩ := fold_below h hops st hw
    have hne : out ≠ (RouteEntry.via h gap hop more).rows := by
      intro hout
      rw [hout, hrows, List.length_cons, List.length_map] at hlen
      omega
    refine ⟨out, st.2, ?_, hw, ?_, ?_, fun hout => absurd hout hne⟩
    · rw [Reads, hlines, List.foldl_cons, hline]
      exact hreads
    · rw [hrows, List.length_cons, List.length_map]
      exact Nat.le_succ_of_le hlen
    · rw [RouteEntry.Attributed, hg]
      exact iff_of_false hne (by decide)
  | false =>
    rw [hg, if_neg (by decide)] at hline
    set st' : State := (st.1 ++ [hop.row h.row], none) with hst'
    have hlast : lastSource st' = some h.source := lastSource_append st _ none
    obtain ⟨out, hreads, hlen, hout⟩ := fold_below h hops st' (by simp [Waiting, hst'])
    have heq : out = hops.map (WrappedHop.row h.row) := by
      rw [hout, hlast]
      exact hopsAttributed_of_last h.source more
    refine ⟨hop.row h.row :: out, none, ?_, by simp, ?_, ?_, fun _ => ?_⟩
    · rw [Reads, hlines, List.foldl_cons, hline]
      rw [Reads] at hreads
      rw [hreads, hst']
      simp
    · rw [hrows, List.length_cons, List.length_cons, List.length_map]
      exact Nat.succ_le_succ hlen
    · rw [RouteEntry.Attributed, hg, hrows, heq]
      exact iff_of_true rfl rfl
    · have hafter := lastSource_map h st' hops none
      rw [hlast] at hafter
      have hsome : lastAfter h.source (some h.source) hops = some h.source := by
        rw [lastAfter]
        split <;> rfl
      have happ : st'.1 ++ hops.map (WrappedHop.row h.row) =
          st.1 ++ (hop.row h.row :: hops.map (WrappedHop.row h.row)) := by
        rw [hst']
        simp
      rw [hsome, happ] at hafter
      rw [RouteEntry.after, heq, hafter]
      rfl

theorem wrapped_spec (h : EntryHead) (hops : List WrappedHop) (st : State) (hw : Waiting st) :
    ∃ out p, ReadsEntry st (.wrapped h hops) out p := by
  have hline := routeLine_wrapped h st
  have hrows : (RouteEntry.wrapped h hops).rows = hops.map (WrappedHop.row h.row) := rfl
  cases hg : h.glued with
  | true =>
    rw [hg, if_pos rfl] at hline
    obtain ⟨out, hreads, hlen, hout⟩ := fold_below h hops st hw
    refine ⟨out, st.2, ?_, hw, ?_, ?_, fun heq => ?_⟩
    · rw [Reads, RouteEntry.lines, List.foldl_cons, hline]
      exact hreads
    · rw [hrows, List.length_map]
      exact hlen
    · rw [RouteEntry.Attributed, hg, if_pos rfl, hrows]
      exact hout
    · rw [RouteEntry.after, hg, if_pos rfl, heq, hrows, lastSource_map]
      rfl
  | false =>
    rw [hg, if_neg (by decide)] at hline
    set st' : State := (st.1, some h.row) with hst'
    have hpending : pendingSource st' = some h.source := rfl
    have hwait : Waiting st' := by
      rintro p hp
      obtain rfl : h.row = p := Option.some.inj hp
      rfl
    obtain ⟨out, hreads, hlen, hout⟩ := fold_below h hops st' hwait
    have heq : out = hops.map (WrappedHop.row h.row) := by
      rw [hout, hpending]
      exact hopsAttributed_of_pending h.source _ hops
    refine ⟨out, some h.row, ?_, hwait, ?_, ?_, fun _ => ?_⟩
    · rw [Reads, RouteEntry.lines, List.foldl_cons, hline]
      exact hreads
    · rw [hrows, List.length_map]
      exact hlen
    · rw [RouteEntry.Attributed, hg, if_neg (by decide), hrows, heq]
      exact iff_of_true rfl trivial
    · rw [RouteEntry.after, hg, if_neg (by decide), heq, lastSource_map]
      rfl

/-- The lines of an entry. -/
theorem entry_spec (e : RouteEntry) (st : State) (hw : Waiting st) :
    ∃ out p, ReadsEntry st e out p := by
  cases e with
  | connected h gap i => exact connected_spec h gap i st hw
  | via h gap hop more => exact via_spec h gap hop more st hw
  | wrapped h hops => exact wrapped_spec h hops st hw

/-! ## Outputs -/

/-- The lines of a list of entries: they add at most the number of its rows, and its rows exactly
when they are attributed to their own networks. -/
theorem fold_entries : ∀ (entries : List RouteEntry) (st : State), Waiting st →
    ∃ out p, Reads st (entries.flatMap RouteEntry.lines) out p ∧
      out.length ≤ (entries.flatMap RouteEntry.rows).length ∧
      (out = entries.flatMap RouteEntry.rows ↔
        AttributedFrom (pendingSource st) (lastSource st) entries)
  | [], st, _ => ⟨[], st.2, by simp [Reads], le_refl _, by simp [AttributedFrom]⟩
  | e :: entries, st, hw => by
    obtain ⟨out, p, hreads, hwait, hlen, hiff, hafter⟩ := entry_spec e st hw
    obtain ⟨rest, p', hreads', hlen', hiff'⟩ := fold_entries entries (st.1 ++ out, p) hwait
    refine ⟨out ++ rest, p', ?_, ?_, ?_⟩
    · rw [Reads] at hreads hreads'
      rw [Reads, List.flatMap_cons, List.foldl_append, hreads, hreads', List.append_assoc]
    · rw [List.flatMap_cons, List.length_append, List.length_append]
      omega
    · rw [List.flatMap_cons, AttributedFrom]
      constructor
      · intro hout
        have hsizes : out.length = e.rows.length := by
          have := congrArg List.length hout
          rw [List.length_append, List.length_append] at this
          omega
        obtain ⟨hown, hothers⟩ := List.append_inj hout hsizes
        rw [hafter hown]
        exact ⟨hiff.mp hown, hiff'.mp hothers⟩
      · rintro ⟨hown, hothers⟩
        have hout := hiff.mpr hown
        rw [hafter hout] at hothers
        rw [hout] at hiff' ⊢
        rw [hout] at hothers
        rw [hiff'.mpr hothers]

theorem RouteEntry.printed_lines (e : RouteEntry) : ∀ l ∈ e.lines, Printed l := by
  intro l hl
  cases e with
  | connected h gap i =>
    rw [List.mem_singleton.mp hl]
    exact (h.printed_text.append (printed_blanks _)).append (printed_directText i)
  | via h gap hop more =>
    rcases List.mem_cons.mp hl with rfl | hl
    · exact (h.printed_text.append (printed_blanks _)).append hop.printed_text
    · obtain ⟨m, -, rfl⟩ := List.mem_map.mp hl
      exact (printed_blanks _).append m.2.printed_text
  | wrapped h hops =>
    rcases List.mem_cons.mp hl with rfl | hl
    · exact h.printed_text
    · obtain ⟨w, -, rfl⟩ := List.mem_map.mp hl
      exact w.printed_line

/-- An OSPF route on two lines, and a connected network below it. -/
def wrappedThenConnected : List RouteEntry :=
  let vlan1 : IntfName := ⟨"Vlan1".toList, by decide, by decide, by decide, by decide⟩
  let vlan10 : IntfName := ⟨"Vlan10".toList, by decide, by decide, by decide, by decide⟩
  let learned : EntryHead :=
    { code := 'O', type := "ospf", known := rfl, star := false, qual := none, qual_mem := by simp,
      gap := 7, net := Ipv4.pack 10 20 30 0, len := 24, len_le := by decide }
  let hop : Hop :=
    { dist := 110, metric := 20, gw := Ipv4.pack 10 0 0 2, age := none, intf := some vlan10 }
  let attached : EntryHead :=
    { code := 'C', type := "connected", known := rfl, star := false, qual := none,
      qual_mem := by simp, gap := 7, net := Ipv4.pack 192 168 1 0, len := 24,
      len_le := by decide }
  [.wrapped learned [.via 10 hop], .connected attached 0 vlan1]

end SentinelNet.RouteTable
