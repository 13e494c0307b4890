import SentinelNet.Probes.Management

/-!
# Commands for many devices

`/api/bulk-command` of `routers/commands.py` sends the same lines to many devices. The blacklist of
a single command does not apply there. The patterns that do, for every role, are whole words, while
a device also takes the first letters of a word.

* `noWayRound_iff`: which lines are a way round the blacklist.
* `reload_abbreviated`: such a line.
-/

namespace SentinelNet.Probes

open Observability PyText Outcomes Pattern
open Inventory (Unicode Host)
open Sessions (isAdmin)

/-! ## The route -/

/-- `BULK_ALWAYS_PATTERNS` -/
def bulkPatterns : List Pattern :=
  [word "reload", word "reboot", word "erase", word "format",
    cat [.boundary, lit "write", spaces, lit "erase", .boundary]]

def isBulkCommandAllowed (u : Unicode) (command : String) : Bool :=
  (bulkPatterns.find? fun p => p.search u (lowerText (strip command))).isNone

structure BulkCommandRequest where
  ips : List String
  commands : String
  mode : String
  save : Bool

def BulkCommandRequest.lines (req : BulkCommandRequest) : List String :=
  ((splitlines req.commands).map strip).filter (· ≠ "")

/-- What `_run_bulk_job` makes of a request: each target gets the commands from
`run_bulk_command`. -/
structure BulkJob where
  targets : List Host
  commands : List String
  configMode : Bool
  save : Bool

section Route

variable (u : Unicode) (view : RouteView) (me : Caller)

/-- The last device with an address. -/
def RouteView.byIp (ip : String) : Option Host := view.devices.reverse.find? fun d => d.ip = ip

/-- The first of the values that does not pass a check is refused. -/
def demandAll (values : List String) (ok : String → Bool) (refusal : String → RouteError) :
    Except RouteError Unit :=
  match values.find? fun v => !ok v with
  | some v => .error (refusal v)
  | none => .ok ()

def startBulkCommand (req : BulkCommandRequest) : Except RouteError BulkJob := do
  demand (view.holdsTab me "tab-devices" || view.holdsTab me "tab-ai")
    ⟨403, "Funzionalita' non abilitata per questo utente."⟩
  RouteView.requireOperator me
  demand (req.lines ≠ []) ⟨400, "Nessun comando fornito."⟩
  demand (req.ips ≠ []) ⟨400, "Nessun dispositivo selezionato."⟩
  demandAll req.lines (isBulkCommandAllowed u) fun c =>
    ⟨400, "Comando non consentito per motivi di sicurezza: '" ++ c ++ "'."⟩
  demandAll req.ips isAddressLike fun ip => ⟨400, "IP non valido: " ++ ip⟩
  demandAll req.ips (fun ip => (view.byIp ip).all fun d => view.groupAllowed me d.group) fun ip =>
    ⟨403, "Dispositivo '" ++ ip ++ "' in una sede non consentita per il tuo profilo."⟩
  return ⟨req.ips.filterMap view.byIp, req.lines, req.mode = "config", req.save⟩

/-! ## Ways round the blacklist -/

/-- A line made of a word, alone or with arguments. -/
def OpensWith (line word : String) : Prop := ∃ rest,
  (lowerText (strip line)).toList = word.toList ++ rest ∧ ∀ c ∈ rest.head?, isSpace c = true

def destructiveWords : List String := ["reload", "erase", "format"]

/-- The shorter forms of these that the interactive patterns know. -/
def shortForms : List String := ["reloa", "relo", "rel", "eras", "era", "forma", "form"]

/-- What is sent to a device may be sent by itself, when it is not a configuration; and nothing
destructive is sent. -/
def NoWayRound (job : BulkJob) : Prop := ∀ d ∈ job.targets, ∀ line ∈ job.commands,
  (job.configMode = false → view.commandAllowed me u line = true) ∧
    ∀ w ∈ destructiveWords ++ shortForms, ¬OpensWith line w

/-- The interactive patterns for which there is none in bulk. -/
def interactiveOnly : List Pattern :=
  shortForms.map word ++ abbreviated "delete" 3 :: (interactivePatterns u).drop 5

/-- No line is a short form, and none that an operator sends under the blacklist has a pattern that
is missing in bulk. -/
def WrittenOut (job : BulkJob) : Prop := ∀ d ∈ job.targets, ∀ line ∈ job.commands,
  (job.configMode = false → isAdmin me.role = false → view.cliBlacklistOperators = true →
    ∀ p ∈ interactiveOnly u, p.search u (lowerText (strip line)) = false) ∧
  ∀ w ∈ shortForms, ¬OpensWith line w

end Route

/-! ## Patterns -/

section Patterns

variable {u : Unicode} {s : String}

theorem search_iff {p : Pattern} :
    p.search u s = true ↔ ∃ spot ∈ places s.toList, ∃ e, e ∈ p.ends u spot := by
  simp only [Pattern.search, List.any_eq_true, Bool.not_eq_true',
    List.isEmpty_eq_false_iff_exists_mem]

/-- A choice between patterns, as `abbreviated` makes it. -/
theorem search_choice (first : Pattern) (rest : List Pattern) :
    (cat [.boundary, rest.foldl .alt first, .boundary]).search u s = false ↔
      ∀ q ∈ first :: rest, (cat [.boundary, q, .boundary]).search u s = false := by
  have hends : ∀ (rest : List Pattern) (first : Pattern) (spot e : Place),
      e ∈ (rest.foldl .alt first).ends u spot ↔ ∃ q ∈ first :: rest, e ∈ q.ends u spot := by
    intro rest
    induction rest with
    | nil => simp
    | cons p rest ih =>
      intro first spot e
      simp [ih, Pattern.ends, or_assoc]
  simp only [← Bool.not_eq_true, search_iff, cat, List.foldr_cons, List.foldr_nil, Pattern.ends,
    List.mem_flatMap, hends]
  constructor
  · rintro h q hq ⟨spot, hspot, e, a, ha, b, hb, hrest⟩
    exact h ⟨spot, hspot, e, a, ha, b, ⟨q, hq, hb⟩, hrest⟩
  · rintro h ⟨spot, hspot, e, a, ha, b, ⟨q, hq, hb⟩, hrest⟩
    exact h q hq ⟨spot, hspot, e, a, ha, b, hb, hrest⟩

/-- A word at the beginning of a text is found. -/
theorem search_word {w : String} {first last : Char} {rest : List Char}
    (hfirst : (w.toList ++ rest).head? = some first) (hword : isWord u first)
    (hlit : (lit w).ends u (none, w.toList ++ rest) = [(some last, rest)])
    (hlast : isWord u last) (hrest : ∀ c ∈ rest.head?, isWord u c = false)
    (hs : s.toList = w.toList ++ rest) : (word w).search u s = true := by
  have hend : rest.head?.any (isWord u) = false := by
    rw [Option.any_eq_false]
    simpa using hrest
  refine search_iff.mpr ⟨(none, s.toList), ?_, (some last, rest), ?_⟩
  · cases s.toList <;> simp [places]
  · rw [hs]
    simp [word, cat, Pattern.ends, hfirst, hword, hlit, hlast, hend]

theorem search_abbreviated (hbulk : ∀ p ∈ bulkPatterns, p.search u s = false) :
    (∀ p ∈ interactivePatterns u, p.search u s = false) ↔
      ∀ p ∈ interactiveOnly u, p.search u s = false := by
  have hreload : (abbreviated "reload" 3).search u s = false ↔ _ :=
    search_choice (lit "reload") [lit "reloa", lit "relo", lit "rel"]
  have herase : (abbreviated "erase" 3).search u s = false ↔ _ :=
    search_choice (lit "erase") [lit "eras", lit "era"]
  have hformat : (abbreviated "format" 4).search u s = false ↔ _ :=
    search_choice (lit "format") [lit "forma", lit "form"]
  simp only [bulkPatterns, List.forall_mem_cons, word] at hbulk
  obtain ⟨hbreload, hbreboot, hberase, hbformat, -⟩ := hbulk
  simp only [interactivePatterns, interactiveOnly, shortForms, List.drop, List.map, List.cons_append,
    List.nil_append, List.forall_mem_cons, hreload, herase, hformat, word, hbreload, hbreboot,
    hberase, hbformat, true_and]
  constructor
  · rintro ⟨⟨h₁, h₂, h₃, -⟩, ⟨h₄, h₅, -⟩, hdelete, ⟨h₆, h₇, -⟩, hrest⟩
    exact ⟨h₁, h₂, h₃, h₄, h₅, h₆, h₇, hdelete, hrest⟩
  · rintro ⟨h₁, h₂, h₃, h₄, h₅, h₆, h₇, hdelete, hrest⟩
    exact ⟨⟨h₁, h₂, h₃, by simp⟩, ⟨h₄, h₅, by simp⟩, hdelete, ⟨h₆, h₇, by simp⟩, hrest⟩

end Patterns

/-! ## Main results -/

section Main

variable {u : Unicode} {view : RouteView} {me : Caller} {req : BulkCommandRequest} {job : BulkJob}

theorem demandAll_ok {values : List String} {ok : String → Bool} {refusal : String → RouteError}
    (h : demandAll values ok refusal = .ok ()) : ∀ v ∈ values, ok v = true := by
  unfold demandAll at h
  split at h
  · cases h
  · next hnone => simpa using hnone

theorem startBulkCommand_ok (h : startBulkCommand u view me req = .ok job) :
    ∀ line ∈ job.commands, ∀ p ∈ bulkPatterns, p.search u (lowerText (strip line)) = false := by
  obtain ⟨_, _, h⟩ := bind_ok h
  obtain ⟨_, _, h⟩ := bind_ok h
  obtain ⟨_, _, h⟩ := bind_ok h
  obtain ⟨_, _, h⟩ := bind_ok h
  obtain ⟨_, hallowed, h⟩ := bind_ok h
  obtain ⟨_, _, h⟩ := bind_ok h
  obtain ⟨_, _, h⟩ := bind_ok h
  obtain rfl := Except.ok.inj h
  intro line hline
  have := demandAll_ok hallowed line hline
  simpa [isBulkCommandAllowed] using this

/-- A job that was accepted is no way round the blacklist exactly if the words in it are written
out, and it has no other pattern that the blacklist has for its sender. -/
theorem noWayRound_iff (hspace : ∀ c, isSpace c = true → u.isalnum c = false)
    (hletters : ∀ w ∈ destructiveWords, ∀ c ∈ w.toList, u.isalnum c = true)
    (h : startBulkCommand u view me req = .ok job) :
    NoWayRound u view me job ↔ WrittenOut u view me job := by
  refine forall₂_congr fun d _ => forall₂_congr fun line hline => ?_
  have hbulk := startBulkCommand_ok h line hline
  refine and_congr ?_ ?_
  · have hsafe : isCommandSafe u line = true ↔
        ∀ p ∈ interactivePatterns u, p.search u (lowerText (strip line)) = false := by
      simp [isCommandSafe, matchesInteractive]
    rw [RouteView.commandAllowed, Bool.or_eq_true, Bool.or_eq_true, hsafe,
      search_abbreviated hbulk, Bool.not_eq_true', or_assoc, or_iff_not_imp_left,
      or_iff_not_imp_left]
    simp only [Bool.not_eq_true, Bool.not_eq_false]
  · have hwhole : ∀ w ∈ destructiveWords, ¬OpensWith line w := by
      rintro w hw ⟨rest, hs, hrest⟩
      have hfree : ∀ c ∈ rest.head?, isWord u c = false := by
        intro c hc
        have hc := hrest c hc
        have hne : c ≠ '_' := by
          rintro rfl
          exact absurd hc (by decide)
        simp [isWord, hspace c hc, hne]
      have hletter : ∀ c ∈ w.toList, isWord u c = true := fun c hc => by
        simp [isWord, hletters w hw c hc]
      have hmem : word w ∈ bulkPatterns ∧ (word w).search u (lowerText (strip line)) = true := by
        simp only [destructiveWords, List.mem_cons, List.not_mem_nil, or_false] at hw
        rcases hw with rfl | rfl | rfl <;>
          exact ⟨by simp [bulkPatterns],
            search_word rfl (hletter _ (by decide)) rfl (hletter _ (by decide)) hfree hs⟩
      exact absurd hmem.2 (by simp [hbulk _ hmem.1])
    simp only [List.forall_mem_append]
    exact and_iff_right hwhole

end Main

theorem isAlphanum_of_isSpace {c : Char} (h : isSpace c) : c.isAlphanum = false := by
  by_contra hne
  simp only [Bool.not_eq_false, Char.isAlphanum, Char.isAlpha, Char.isUpper, Char.isLower,
    Char.isDigit, Bool.or_eq_true, Bool.and_eq_true, decide_eq_true_eq, ge_iff_le,
    UInt32.le_iff_toNat_le] at hne
  have hbounds : 33 ≤ c.toNat ∧ c.toNat ≤ 127 := by
    rcases hne with (hne | hne) | hne <;>
      exact ⟨Nat.le_trans (by decide) hne.1, Nat.le_trans hne.2 (by decide)⟩
  rw [isSpace_of_between hbounds.1 hbounds.2] at h
  cases h

/-- The operator for Rome sends a command to the device there. -/
def toRome (commands : String) : BulkCommandRequest := ⟨["10.0.0.1"], commands, "exec", false⟩

theorem noWayRound_iff_version :
    let job : BulkJob := ⟨rome.devices, ["show version"], false, false⟩
    NoWayRound ascii rome ⟨"ops", .operator⟩ job ↔ WrittenOut ascii rome ⟨"ops", .operator⟩ job :=
  noWayRound_iff (fun _ => isAlphanum_of_isSpace) (by decide)
    (show startBulkCommand ascii rome ⟨"ops", .operator⟩ (toRome "show version") = _ by rfl)

/-- `rel` reloads the device. -/
theorem reload_abbreviated : ∃ job,
    startBulkCommand ascii rome ⟨"root", .admin⟩ (toRome "rel") = .ok job ∧
      ¬NoWayRound ascii rome ⟨"root", .admin⟩ job :=
  ⟨⟨rome.devices, ["rel"], false, false⟩, by rfl, fun h =>
    (h _ (List.mem_singleton_self _) _ (List.mem_singleton_self _)).2 "rel" (by decide)
      ⟨[], by rfl, fun _ h => nomatch h⟩⟩

end SentinelNet.Probes
