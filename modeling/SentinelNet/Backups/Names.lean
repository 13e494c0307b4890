import SentinelNet.Backups.Store

/-!
# Names of backups

An address has digits and dots only, so that it can be read off the end of a file name; a version
ends with the letter of its time instead.

* `ipChar_of_valid`: the characters of an address.
* `isBackupOf_backupName`: a backup is one of its own address only.
* `not_isBackupOf_archiveName`, `not_isBackupOf_indexName`: what is archived is no backup.
* `isHistoryOf_archiveName`, `isHistoryOf_indexName`: it is in the history of its address.
-/

namespace SentinelNet.Backups

open PyText FileTree Inventory

/-! ## Addresses -/

/-- A character of an address; the pattern lets a line break follow. -/
def ipChar (c : Char) : Bool := c.isDigit || c = '.' || c = '\n'

variable {ip : String}

theorem ipChar_of_valid (h : validIp ip) {c : Char} (hc : c ∈ ip.toList) :
    ipChar c = true := by
  unfold validIp ipParts at h
  dsimp only at h
  generalize hcs : (if ip.toList.getLast? = some '\n' then ip.toList.dropLast else ip.toList) = cs
    at h
  have hmem : c ∈ cs ∨ c = '\n' := by
    by_cases hlast : ip.toList.getLast? = some '\n'
    · rw [if_pos hlast] at hcs
      have hsplit := List.dropLast_append_getLast? _ hlast
      rw [← hsplit, hcs] at hc
      exact (List.mem_append.mp hc).imp_right List.mem_singleton.mp
    · rw [if_neg hlast] at hcs
      exact .inl (hcs ▸ hc)
  rcases hmem with hmem | rfl
  · split at h
    · next parts hparts =>
      split at hparts
      · next hall =>
        rcases mem_splitOn (c := '.') hmem with rfl | ⟨seg, hseg, hin⟩
        · rfl
        · have hdigits := List.all_eq_true.mp hall.2 seg hseg
          rw [Bool.and_eq_true, isDigits, Bool.and_eq_true] at hdigits
          have hdigit := List.all_eq_true.mp hdigits.1.2 c hin
          rw [ipChar, hdigit, Bool.true_or, Bool.true_or]
      · cases hparts
    · cases h
  · rfl

theorem ne_nil_of_valid (h : validIp ip) : ip.toList ≠ [] := by
  intro hnil
  rw [validIp, ipParts, hnil] at h
  exact Bool.false_ne_true h

/-! ## Ends of names -/

theorem endsWith_iff {s p : String} : endsWith s p = true ↔ p.toList <:+ s.toList :=
  List.isSuffixOf_iff_suffix

theorem contains_iff {s p : String} : contains s p = true ↔ p.toList <:+: s.toList :=
  any_tails_isPrefixOf

theorem eq_of_marked_suffixes {α : Type*} {a b l : List α} {c d : α} (ha : (c :: a) <:+ l)
    (hb : (d :: b) <:+ l) (hc : c ∉ b) (hd : d ∉ a) : a = b := by
  rcases List.suffix_or_suffix_of_suffix ha hb with h | h
  · rcases List.suffix_cons_iff.mp h with h | h
    · exact (List.cons.inj h).2
    · exact absurd (h.mem List.mem_cons_self) hc
  · rcases List.suffix_cons_iff.mp h with h | h
    · exact (List.cons.inj h).2.symm
    · exact absurd (h.mem List.mem_cons_self) hd

theorem suffix_of_isBackupOf {f : String} (h : isBackupOf ip f) :
    ip.toList ++ ".txt".toList <:+ f.toList := by
  unfold isBackupOf at h
  rw [Bool.or_eq_true, Bool.or_eq_true, endsWith_iff, endsWith_iff, decide_eq_true_eq] at h
  rcases h with (h | h) | h
  · rw [String.toList_append, String.toList_append, List.append_assoc] at h
    exact (List.suffix_append _ _).trans h
  · rw [String.toList_append, String.toList_append, List.append_assoc] at h
    exact (List.suffix_append _ _).trans h
  · rw [h, String.toList_append]

theorem append_suffix_append_right {α : Type*} {a l r : List α} : a ++ r <:+ l ++ r ↔ a <:+ l := by
  constructor
  · rintro ⟨w, hw⟩
    rw [← List.append_assoc] at hw
    exact ⟨w, List.append_cancel_right hw⟩
  · rintro ⟨w, rfl⟩
    exact ⟨w, by rw [List.append_assoc]⟩

/-- A backup is one of its own address only. -/
theorem isBackupOf_backupName {ip' : String} (h : validIp ip) (h' : validIp ip')
    (sysName : String) : isBackupOf ip' (backupName sysName ip) = true ↔ ip' = ip := by
  have hname : (backupName sysName ip).toList =
      (sanitizeFilename sysName).toList ++ '-' :: ip.toList ++ ".txt".toList := by
    rw [backupName, String.toList_append, String.toList_append, String.toList_append]
    simp
  have hmark : ('-' :: ip.toList) <:+ (sanitizeFilename sysName).toList ++ '-' :: ip.toList :=
    List.suffix_append _ _
  have hdash : ∀ {x : String}, validIp x = true → ∀ c, c = '-' ∨ c = '_' → c ∉ x.toList := by
    rintro x hx c (rfl | rfl) hc
    · exact absurd (ipChar_of_valid hx hc) (by decide)
    · exact absurd (ipChar_of_valid hx hc) (by decide)
  unfold isBackupOf
  rw [Bool.or_eq_true, Bool.or_eq_true, endsWith_iff, endsWith_iff, decide_eq_true_eq, hname]
  constructor
  · rintro ((h₁ | h₂) | h₃)
    · rw [String.toList_append, String.toList_append, append_suffix_append_right] at h₁
      exact String.toList_inj.mp (eq_of_marked_suffixes (c := '-') h₁ hmark
        (hdash h '-' (.inl rfl)) (hdash h' '-' (.inl rfl)))
    · rw [String.toList_append, String.toList_append, append_suffix_append_right] at h₂
      exact String.toList_inj.mp (eq_of_marked_suffixes (c := '_') h₂ hmark
        (hdash h '_' (.inr rfl)) (hdash h' '-' (.inl rfl)))
    · have heq := congrArg String.toList h₃
      rw [hname, String.toList_append] at heq
      have hip := List.append_cancel_right heq
      refine absurd ?_ (hdash h' '-' (.inl rfl))
      rw [← hip]
      exact List.mem_append_right _ List.mem_cons_self
  · rintro rfl
    refine .inl (.inl ?_)
    rw [String.toList_append, String.toList_append, append_suffix_append_right]
    exact hmark

/-! ## Archived names -/

/-- A version is no backup, as it does not end with an address. -/
theorem not_isBackupOf_archiveName (h : validIp ip) (hostname ip' : String)
    (now : Stamp) : isBackupOf ip (archiveName hostname ip' now) = false := by
  refine Bool.eq_false_iff.mpr fun hbackup => ?_
  have hname : (archiveName hostname ip' now).toList =
      ((sanitizeFilename (orElse hostname ip') ++ "-" ++ ip' ++ "." ++ now.seconds ++ "." ++
        now.micros).toList ++ ['Z']) ++ ".txt".toList := by
    rw [archiveName, Stamp.text]
    simp only [String.toList_append, List.append_assoc]
    rfl
  have hsuffix := suffix_of_isBackupOf hbackup
  rw [hname, append_suffix_append_right] at hsuffix
  obtain ⟨w, hw⟩ := hsuffix
  have hlast := congrArg List.getLast? hw
  rw [List.getLast?_append_of_ne_nil _ (ne_nil_of_valid h), List.getLast?_concat] at hlast
  exact absurd (ipChar_of_valid h (List.mem_of_getLast? hlast)) (by decide)

theorem not_isBackupOf_indexName (ip ip' : String) : isBackupOf ip (indexName ip') = false := by
  refine Bool.eq_false_iff.mpr fun hbackup => ?_
  obtain ⟨w, hw⟩ := suffix_of_isBackupOf hbackup
  have hlast := congrArg List.getLast? hw
  rw [indexName, String.toList_append, ← List.append_assoc,
    List.getLast?_append_of_ne_nil _ (by decide), List.getLast?_append_of_ne_nil _ (by decide)]
    at hlast
  exact absurd hlast (by decide)

/-- A version is in the history of its address. -/
theorem isHistoryOf_archiveName (hostname ip : String) (now : Stamp) :
    isHistoryOf ip (archiveName hostname ip now) = true := by
  unfold isHistoryOf
  rw [Bool.or_eq_true, contains_iff]
  refine .inl ⟨(sanitizeFilename (orElse hostname ip)).toList, (now.text ++ ".txt").toList, ?_⟩
  rw [archiveName]
  simp only [String.toList_append, List.append_assoc]

theorem isHistoryOf_indexName (ip : String) : isHistoryOf ip (indexName ip) = true := by
  unfold isHistoryOf
  rw [Bool.or_eq_true]
  refine .inr (List.isPrefixOf_iff_prefix.mpr ⟨"index.json".toList, ?_⟩)
  rw [indexName, String.toList_append, String.toList_append, List.append_assoc]
  rfl

theorem indexName_inj {ip' : String} (h : indexName ip = indexName ip') : ip = ip' := by
  have h := congrArg String.toList h
  rw [indexName, indexName, String.toList_append, String.toList_append] at h
  exact String.toList_inj.mp (List.append_cancel_right h)

/-! ## Folders -/

theorem historyOf_inj {d e : Dir} : historyOf d = historyOf e ↔ d = e :=
  ⟨fun h => List.append_cancel_right h, fun h => h ▸ rfl⟩

/-- The name of a folder that is not special. -/
def Plain (part : String) : Prop := Proper part ∧ part ≠ ".history"

instance (part : String) : Decidable (Plain part) := inferInstanceAs (Decidable (_ ∧ _))

theorem Plain.ne_historyOf {part : String} (h : Plain part) (d e : Dir) :
    d ++ [part] ≠ historyOf e := by
  intro heq
  exact h.2 (List.cons.inj (List.append_inj' heq rfl).2).1

end SentinelNet.Backups
