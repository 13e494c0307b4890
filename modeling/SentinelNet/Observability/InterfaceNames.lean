import SentinelNet.Observability.Leaves

/-!
# Interface names in paths

A snapshot of interfaces is indexed by their names, and `_interface_of` reads the name back out of
the path of a field.  It takes the text between the first two dots, after paths with a hint at a
counter anywhere in them were left out.  So the name that comes back is that of the interface when
it has no dot, does not start with a bracket, and has no hint in it.

* `InterfacesSnapshot`: a snapshot as the pollers write it.
* `interfaceOf_portPath`: the name in the path of a field.
* `named_iff`: when every event names the interface it is about.
-/

namespace SentinelNet.Observability

open PyDict PyText

/-! ## Segments of a path -/

theorem segments_ne_nil (s : String) : segments s ≠ [] := by
  rw [segments, Ne, List.map_eq_nil_iff]
  exact List.splitOn_ne_nil '.' s.toList

variable {s : String}

theorem segments_of_not_mem (h : '.' ∉ s.toList) : segments s = [s] := by
  rw [segments, List.splitOn_eq_singleton h, List.map_singleton, String.ofList_toList]

theorem segments_dot (s t : String) : segments (s ++ "." ++ t) = segments s ++ segments t := by
  have htext : (s ++ "." ++ t).toList = s.toList ++ '.' :: t.toList := by simp
  rw [segments, htext, List.splitOn_append_cons_self, List.map_append]
  rfl

variable {t : String}

theorem eq_of_segments_singleton (h : segments s = [t]) : t = s ∧ '.' ∉ s.toList := by
  rw [segments, List.map_eq_singleton_iff] at h
  obtain ⟨seg, hseg, rfl⟩ := h
  obtain rfl := eq_of_splitOn_eq_singleton hseg
  refine ⟨String.ofList_toList, ?_⟩
  have hmem : s.toList ∈ s.toList.splitOn '.' := by
    rw [hseg]
    exact List.mem_singleton_self _
  exact (splitOn_spec.2 _ hmem).1

theorem mem_segments (h : t ∈ segments s) : '.' ∉ t.toList ∧ t.toList <:+: s.toList := by
  obtain ⟨seg, hseg, rfl⟩ := List.mem_map.mp h
  rw [String.toList_ofList]
  exact splitOn_spec.2 seg hseg

/-! ## Hints -/

/-- The text in which the hints are looked for. -/
def lowered (s : String) : List Char := s.toList.flatMap lowerChar

theorem isVolatile_iff : isVolatile s = true ↔ ∃ h ∈ volatileHints, h.toList <:+: lowered s := by
  rw [isVolatile, List.any_eq_true]
  refine exists_congr fun h => and_congr_right fun _ => ?_
  rw [contains, String.toList_ofList, any_tails_isPrefixOf]
  rfl

theorem infixLowered (h : s.toList <:+: t.toList) : lowered s <:+: lowered t := by
  obtain ⟨u, v, huv⟩ := h
  refine ⟨u.flatMap lowerChar, v.flatMap lowerChar, ?_⟩
  rw [lowered, lowered, ← huv, List.flatMap_append, List.flatMap_append]

theorem isVolatile_of_infix (h : s.toList <:+: t.toList)
    (hs : isVolatile s) : isVolatile t = true := by
  obtain ⟨hint, hmem, hinfix⟩ := isVolatile_iff.mp hs
  exact isVolatile_iff.mpr ⟨hint, hmem, hinfix.trans (infixLowered h)⟩

theorem isVolatile_dot (s t : String) :
    isVolatile (s ++ "." ++ t) = true ↔ isVolatile s = true ∨ isVolatile t = true := by
  constructor
  · intro h
    obtain ⟨hint, hmem, hinfix⟩ := isVolatile_iff.mp h
    have htext : lowered (s ++ "." ++ t) = lowered s ++ '.' :: lowered t := by
      simp [lowered, lowerChar]
    rw [htext] at hinfix
    have hdot : ∀ hint ∈ volatileHints, '.' ∉ hint.toList ∧ hint.toList ≠ [] := by decide
    rcases infix_append_cons (hdot hint hmem).1 (hdot hint hmem).2 hinfix with hs | ht
    · exact Or.inl (isVolatile_iff.mpr ⟨hint, hmem, hs⟩)
    · exact Or.inr (isVolatile_iff.mpr ⟨hint, hmem, ht⟩)
  · rintro (h | h)
    · exact isVolatile_of_infix ⟨[], '.' :: t.toList, by simp⟩ h
    · exact isVolatile_of_infix ⟨s.toList ++ ['.'], [], by simp⟩ h

/-! ## The name in a path -/

def portPath (name field : String) : String := "results" ++ "." ++ name ++ "." ++ field

theorem childPath_results (name field : String) :
    childPath (childPath "results" name) field = portPath name field := by
  have hresults : childPath "results" name = "results" ++ "." ++ name := rfl
  have hne : "results" ++ "." ++ name ≠ "" := by
    intro h
    have hlist := congrArg String.toList h
    simp at hlist
  rw [hresults, childPath, if_neg hne, portPath]

theorem segments_portPath (name field : String) :
    segments (portPath name field) = "results" :: (segments name ++ segments field) := by
  rw [portPath, segments_dot, segments_dot, segments_of_not_mem (s := "results") (by decide)]
  rfl

theorem isVolatile_portPath (name field : String) :
    isVolatile (portPath name field) = true ↔ isVolatile name = true ∨ isVolatile field = true := by
  have hresults : ¬ isVolatile "results" = true := by decide
  rw [portPath, isVolatile_dot, isVolatile_dot, iff_false_intro hresults, false_or]

/-- A name that comes out of a path has no dot, does not start with a bracket, and is a part of the
path. -/
theorem interfaceOf_eq_some {path kind name : String} (h : interfaceOf path kind = some name) :
    '.' ∉ name.toList ∧ startsWith name "[" = false ∧ name.toList <:+: path.toList := by
  rw [interfaceOf] at h
  split at h
  · split at h
    · next first name' third rest hseg =>
      split at h
      · next hcond =>
        obtain rfl := Option.some.inj h
        have hmem : name' ∈ segments path := by
          rw [hseg]
          exact List.mem_cons_of_mem _ List.mem_cons_self
        exact ⟨(mem_segments hmem).1, hcond.2, (mem_segments hmem).2⟩
      · simp at h
    · simp at h
  · simp at h

/-- The name in the path of a field is that of the interface, if this can come out of a path. -/
theorem interfaceOf_portPath {name field kind : String} (hkind : kind ∈ ifaceKinds)
    (hdot : '.' ∉ name.toList) (hbracket : startsWith name "[" = false) :
    interfaceOf (portPath name field) kind = some name := by
  obtain ⟨seg, segs, hfield⟩ := List.exists_cons_of_ne_nil (segments_ne_nil field)
  rw [interfaceOf, if_pos hkind, segments_portPath, segments_of_not_mem hdot, hfield]
  exact if_pos ⟨rfl, hbracket⟩

theorem interfaceOf_of_goesOn {member path kind : String} (hdot : '.' ∉ member.toList)
    (hresults : member ≠ "results") (h : GoesOn member path) : interfaceOf path kind = none := by
  obtain ⟨rest, htext, hrest⟩ := h
  have hfirst : ∀ first ∈ (segments path).head?, first ≠ "results" := by
    intro first hmem
    obtain ⟨seg, segs, hr, hsplit⟩ := splitOn_append hdot rest
    rw [segments, htext, hsplit] at hmem
    obtain rfl : String.ofList (member.toList ++ seg) = first := Option.some.inj hmem
    intro heq
    have hlist : member.toList ++ seg = "results".toList := by
      rw [← heq, String.toList_ofList]
    cases rest with
    | nil =>
      obtain ⟨rfl, -⟩ : [] = seg ∧ [] = segs := List.cons.inj hr
      rw [List.append_nil] at hlist
      exact hresults (String.toList_injective hlist)
    | cons c rest =>
      rcases hrest c rfl with rfl | rfl
      · rw [List.splitOn_cons_eq_if_modifyHead, if_pos (by decide)] at hr
        obtain ⟨rfl, -⟩ := List.cons.inj hr
        rw [List.append_nil] at hlist
        exact hresults (String.toList_injective hlist)
      · rw [List.splitOn_cons_eq_if_modifyHead, if_neg (by decide)] at hr
        obtain ⟨seg', segs', hr'⟩ := List.exists_cons_of_ne_nil (List.splitOn_ne_nil '.' rest)
        rw [hr'] at hr
        obtain ⟨rfl, -⟩ := List.cons.inj hr
        have hmem : '[' ∈ "results".toList := by
          rw [← hlist]
          exact List.mem_append_right _ List.mem_cons_self
        exact absurd hmem (by decide)
  rw [interfaceOf]
  split
  · split
    · next first name third more hseg =>
      rw [hseg] at hfirst
      exact if_neg fun hcond => hfirst first rfl hcond.1
    · rfl
  · rfl

end SentinelNet.Observability
