import SentinelNet.Lib.Outcomes
import SentinelNet.Lib.UrlPath
import SentinelNet.Probes.Jobs

/-!
# What the REST relay lets through

`rest_path_allowed` compares the text of a path with the patterns of `REST_RELAY_ALLOWLIST`; the
agent appends the text to `/api/v2/`, and the HTTP client makes a resource of it.  The star of
`log/*/traffic/forward` takes any text, with slashes, encoded dots and question marks, and white
space around the path is looked through by the comparison only.

* `RestBoundary`, `restBoundary_iff`: what the relay is for, and when it holds.
-/

namespace SentinelNet.Probes

open Observability PyDict PyText UrlPath

/-! ## The agent -/

/-- The arguments of `api_get`. -/
structure RestCall where
  path : String
  params : Option Json

/-- `_execute_rest_job` up to the call of `api_get`: an exception, the text of a refusal, or the
call. -/
def restCall (env : Loader) (specJson : String) : Except String (Except String RestCall) :=
  match env.loads specJson with
  | none => .ok (.error "Job REST malformato.")
  | some (.obj spec) =>
    let path := (get? spec "path").getD (.str "")
    match pathText path with
    | none => .error "AttributeError: strip"
    | some text =>
      if restPathAllowed text then .ok (.ok ⟨text, (get? spec "params").filter Json.truthy⟩)
      else .ok (.error ("Percorso REST non consentito: " ++ env.repr path))
  | some _ => .error "AttributeError: get"

/-- The result that an agent posts. -/
structure JobResult where
  status : String
  result : String
  deriving DecidableEq

/-- `_execute_rest_job`, with what `api_get` gives: the text of the answer or of an error. -/
def executeRestJob (env : Loader) (apiGet : RestCall → Except String String) (specJson : String) :
    Except String JobResult :=
  (restCall env specJson).map fun
    | .error refusal => ⟨"error", refusal⟩
    | .ok call =>
      match apiGet call with
      | .ok data => ⟨"done", data⟩
      | .error e => ⟨"error", e⟩

/-! ## Resources -/

def apiRoot : List Segment := [[], "api".toList, "v2".toList]

/-- `path.lstrip('/')` of `api_request`. -/
def apiPath (path : String) : List Char := path.toList.dropWhile (· = '/')

def resourceOf (path : String) : List Segment := resource ("/api/v2".toList ++ '/' :: apiPath path)

def segmentFits (pattern seg : Segment) : Prop :=
  if pattern = ['*'] then seg ≠ [] else seg = pattern

def IsListed (res : List Segment) : Prop :=
  ∃ rest, res = apiRoot ++ rest ∧
    ∃ pattern ∈ restRelayAllowlist, List.Forall₂ segmentFits (pattern.toList.splitOn '/') rest

/-- White space and slashes before a path. -/
def IsMargin (lead : List Char) : Prop := ∀ c ∈ lead, isSpace c = true ∨ c = '/'

def logDirectory (lead : List Char) : List Segment := apiRoot ++ (lead ++ "log".toList).splitOn '/'

/-- A text of the list, or one of the pattern with the star whose text for the star leads from its
directory to one segment below `log`, or to a listed resource before a question mark or a number
sign. -/
inductive StaysInside : List Char → Prop
  | plain {pattern : String} (hmem : pattern ∈ restRelayAllowlist) (hstar : '*' ∉ pattern.toList) :
    StaysInside pattern.toList
  | star {lead star : List Char} {seg : Segment} (hlead : IsMargin lead) (hstar : Uncut star)
    (hseg : seg ≠ [])
    (hleads : rooted (walk (logDirectory lead) (segments star)) = apiRoot ++ ["log".toList, seg]) :
    StaysInside (lead ++ "log".toList ++ '/' :: (star ++ "/traffic/forward".toList))
  | mark {lead star rest : List Char} {c : Char} (hlead : IsMargin lead) (hstar : Uncut star)
    (hc : c = '?' ∨ c = '#')
    (hleads : IsListed (removeDots (logDirectory lead ++ segments star))) :
    StaysInside (lead ++ "log".toList ++ '/' :: (star ++ c :: rest))

/-! ## Jobs -/

/-- The exceptions that leave `enqueue_job` beside its own refusals. -/
def isRaised (e : String) : Bool := startsWith e "AttributeError: "

/-- A path that is let through leads to a listed resource; central and agent let the same jobs
through, with such a path; and any other job is refused without an exception. -/
structure RestBoundary (env : Loader) (path specJson : String) : Prop where
  listed : restPathAllowed path = true → IsListed (resourceOf path)
  both : ∀ jobs req jobId now, req.kind = "rest" → req.command = specJson →
    (∀ j ∈ jobs, j.id ≠ jobId) →
      ((∃ jobs', enqueueJob env jobs req jobId now = .ok jobs') ↔
        ∃ call, restCall env specJson = .ok (.ok call))
  allowed : ∀ call, restCall env specJson = .ok (.ok call) → restPathAllowed call.path = true
  answered : ∀ apiGet, ∃ result, executeRestJob env apiGet specJson = .ok result
  refused : ∀ jobs req jobId now e, req.kind = "rest" → req.command = specJson →
    enqueueJob env jobs req jobId now = .error e → isRaised e = false

/-- What is no JSON, or an object whose path is a text or counts as none. -/
def ReadableSpec (env : Loader) (specJson : String) : Prop :=
  ∀ v, env.loads specJson = some v →
    ∃ spec, v = .obj spec ∧ (pathText ((get? spec "path").getD (.str ""))).isSome = true

/-! ## Texts that match -/

theorem globMatch_cons_nil {p : Char} (h : p ≠ '*') (ps : List Char) :
    globMatch (p :: ps) [] = false := if_neg h

theorem globMatch_cons_cons {p : Char} (h : p ≠ '*') (ps : List Char) (c : Char) (cs : List Char) :
    globMatch (p :: ps) (c :: cs) = (decide (p = c) && globMatch ps cs) := if_neg h

theorem globMatch_star_cons (ps cs : List Char) :
    globMatch ('*' :: ps) cs = cs.tails.any (globMatch ps) := if_pos rfl

theorem globMatch_literal {ps : List Char} (h : '*' ∉ ps) {cs : List Char} :
    globMatch ps cs = true ↔ cs = ps := by
  induction ps generalizing cs with
  | nil => rw [globMatch, List.isEmpty_iff]
  | cons p ps ih =>
    rw [List.mem_cons, not_or] at h
    cases cs with
    | nil =>
      rw [globMatch_cons_nil (Ne.symm h.1)]
      exact ⟨fun h => (nomatch h), fun h => (nomatch h)⟩
    | cons c cs =>
      rw [globMatch_cons_cons (Ne.symm h.1), Bool.and_eq_true, decide_eq_true_iff, ih h.2,
        List.cons.injEq, eq_comm]

theorem globMatch_star {ps qs : List Char} (hp : '*' ∉ ps) (hq : '*' ∉ qs) {cs : List Char} :
    globMatch (ps ++ '*' :: qs) cs = true ↔ ∃ star, cs = ps ++ (star ++ qs) := by
  induction ps generalizing cs with
  | nil =>
    rw [List.nil_append, globMatch_star_cons, List.any_eq_true]
    constructor
    · rintro ⟨t, ht, hmatch⟩
      obtain ⟨star, rfl⟩ := (List.mem_tails _ _).mp ht
      rw [(globMatch_literal hq).mp hmatch]
      exact ⟨star, rfl⟩
    · rintro ⟨star, rfl⟩
      exact ⟨qs, (List.mem_tails _ _).mpr ⟨star, rfl⟩, (globMatch_literal hq).mpr rfl⟩
  | cons p ps ih =>
    rw [List.mem_cons, not_or] at hp
    rw [List.cons_append]
    cases cs with
    | nil =>
      rw [globMatch_cons_nil (Ne.symm hp.1)]
      exact ⟨fun h => (nomatch h), fun ⟨star, h⟩ => (nomatch h)⟩
    | cons c cs =>
      rw [globMatch_cons_cons (Ne.symm hp.1), Bool.and_eq_true, decide_eq_true_iff, ih hp.2]
      constructor
      · rintro ⟨rfl, star, rfl⟩
        exact ⟨star, rfl⟩
      · rintro ⟨star, h⟩
        obtain ⟨rfl, rfl⟩ := List.cons.inj h
        exact ⟨rfl, star, rfl⟩

theorem restRelayAllowlist_cases : ∀ pattern ∈ restRelayAllowlist, '*' ∉ pattern.toList ∨
    pattern.toList = "log/".toList ++ '*' :: "/traffic/forward".toList := by decide

/-- The path that an agent asks for is a text of the list, or one of the pattern with the star,
between white space and slashes before it and white space behind it. -/
theorem apiPath_of_allowed {path : String} (h : restPathAllowed path) :
    ∃ lead text tail, apiPath path = lead ++ text ++ tail ∧ IsMargin lead ∧
      (∀ c ∈ tail, isSpace c = true) ∧
      ∃ pattern ∈ restRelayAllowlist, globMatch pattern.toList text = true := by
  rw [restPathAllowed, Bool.and_eq_true, Bool.and_eq_true, Bool.and_eq_true, List.any_eq_true] at h
  obtain ⟨⟨⟨hne, -⟩, -⟩, hmatch⟩ := h
  obtain ⟨u, v, hpath, hu, hv⟩ := exists_strip path.toList
  rw [strip, String.toList_ofList] at hne hmatch
  set text := (stripChars path.toList).dropWhile (· = '/') with htext
  have hslashes : stripChars path.toList =
      (stripChars path.toList).takeWhile (· = '/') ++ text :=
    (List.takeWhile_append_dropWhile).symm
  have hslash : ∀ c ∈ (stripChars path.toList).takeWhile (· = '/'), c = '/' := by
    intro c hc
    simpa using List.mem_takeWhile_imp hc
  refine ⟨if u = [] then [] else u ++ (stripChars path.toList).takeWhile (· = '/'), text, v, ?_, ?_,
    hv, hmatch⟩
  · cases u with
    | nil =>
      rw [if_pos rfl, apiPath, hpath, List.nil_append, List.nil_append, List.dropWhile_append,
        ← htext, if_neg (by simpa using hne)]
    | cons c u =>
      have hc : c ≠ '/' := fun hc => by
        have hspace := hu c List.mem_cons_self
        rw [hc] at hspace
        exact absurd hspace (by decide)
      rw [if_neg (List.cons_ne_nil c u), apiPath, List.append_assoc (c :: u), ← hslashes, ← hpath]
      rw [hpath, List.cons_append, List.cons_append,
        List.dropWhile_cons_of_neg (by simpa using hc)]
  · intro c hc
    split at hc
    · cases hc
    · exact (List.mem_append.mp hc).imp (hu c) (hslash c)

/-! ## Resources of texts -/

variable {lead : List Char}

theorem IsMargin.plain (h : IsMargin lead) : Plain lead := by
  intro c hc
  rcases h c hc with hspace | rfl
  · exact plain_of_isSpace hspace
  · decide

theorem IsMargin.plain_log (h : IsMargin lead) : Plain (lead ++ "log".toList) :=
  h.plain.append (by decide)

theorem resourceOf_eq (path : String) :
    resourceOf path = removeDots (apiRoot ++ segments (apiPath path)) := by
  have huncut : Uncut "/api/v2".toList := by decide
  have hroot : segments "/api/v2".toList = apiRoot := by decide
  rw [resourceOf, resource, segments_append huncut, hroot]

theorem isDots_apiRoot : ∀ seg ∈ apiRoot, isDots seg = false := by decide

theorem removeDots_plain {text : List Char} (h : Plain text) :
    removeDots (apiRoot ++ segments text) = apiRoot ++ text.splitOn '/' := by
  have hdots : ∀ seg ∈ apiRoot ++ text.splitOn '/', isDots seg = false := fun seg hseg =>
    (List.mem_append.mp hseg).elim (isDots_apiRoot seg) (h.isDots seg)
  rw [h.segments]
  exact removeDots_of_plain hdots

theorem isDots_logDirectory (h : IsMargin lead) :
    ∀ seg ∈ logDirectory lead, isDots seg = false := fun seg hseg =>
  (List.mem_append.mp hseg).elim (isDots_apiRoot seg) (h.plain_log.isDots seg)

theorem segments_log (h : IsMargin lead) (text : List Char) :
    apiRoot ++ segments (lead ++ "log".toList ++ '/' :: text) =
      logDirectory lead ++ segments text := by
  rw [segments_append h.plain_log.uncut, h.plain_log.segments, ← List.append_assoc]
  rfl

variable {star tail : List Char}

theorem removeDots_star (hlead : IsMargin lead) (hstar : Uncut star)
    (htail : ∀ c ∈ tail, isSpace c = true) :
    removeDots (apiRoot ++ segments (lead ++ "log".toList ++ '/' ::
        (star ++ ("/traffic/forward".toList ++ tail)))) =
      rooted (walk (logDirectory lead) (segments star)) ++
        ["traffic".toList, "forward".toList ++ tail] := by
  have hplain : Plain ("forward".toList ++ tail) :=
    Plain.append (by decide) fun c hc => plain_of_isSpace (htail c hc)
  have hslash : '/' ∉ "forward".toList ++ tail := by
    intro hmem
    rcases List.mem_append.mp hmem with hmem | hmem
    · exact absurd hmem (by decide)
    · exact absurd (htail _ hmem) (by decide)
  have hlast : segments ("traffic".toList ++ '/' :: ("forward".toList ++ tail)) =
      ["traffic".toList, "forward".toList ++ tail] := by
    rw [segments_append (by decide), hplain.segments, List.splitOn_eq_singleton hslash]
    rfl
  have hforward : isDots ("forward".toList ++ tail) = false := rfl
  have hdots : ∀ seg ∈ ["traffic".toList, "forward".toList ++ tail], isDots seg = false := by
    intro seg hseg
    rcases List.mem_cons.mp hseg with rfl | hseg
    · decide
    · rw [List.mem_singleton.mp hseg, hforward]
  have htext : star ++ ("/traffic/forward".toList ++ tail) =
      star ++ '/' :: ("traffic".toList ++ '/' :: ("forward".toList ++ tail)) := rfl
  rw [segments_log hlead, htext, segments_append hstar, hlast,
    removeDots_append (isDots_logDirectory hlead) (by simp), walk_append, walk_of_plain hdots,
    rooted_append (by decide), List.getLast?_append_of_ne_nil _ (by simp)]
  exact List.append_nil _

theorem removeDots_mark {c : Char} (hlead : IsMargin lead)
    (hstar : Uncut star) (hc : c = '?' ∨ c = '#') (rest : List Char) :
    removeDots (apiRoot ++ segments (lead ++ "log".toList ++ '/' :: (star ++ c :: rest))) =
      removeDots (logDirectory lead ++ segments star) := by
  rw [segments_log hlead, segments_append_mark hstar hc]

/-! ## The list -/

variable {rest : List Segment}

theorem forall₂_segmentFits {pattern : List Segment} (h : ∀ seg ∈ pattern, seg ≠ ['*']) :
    List.Forall₂ segmentFits pattern rest ↔ rest = pattern := by
  induction pattern generalizing rest with
  | nil => exact List.forall₂_nil_left_iff
  | cons p pattern ih =>
    rw [List.forall₂_cons_left_iff]
    have hp : ∀ seg, segmentFits p seg ↔ seg = p := fun seg => by
      rw [segmentFits, if_neg (h p List.mem_cons_self)]
    constructor
    · rintro ⟨seg, rest, hseg, hrest, rfl⟩
      rw [(hp seg).mp hseg, (ih (List.forall_mem_cons.mp h).2).mp hrest]
    · rintro rfl
      exact ⟨p, pattern, (hp p).mpr rfl, (ih (List.forall_mem_cons.mp h).2).mpr rfl,
        rfl⟩

theorem segmentFits_star {seg : Segment} : segmentFits ['*'] seg ↔ seg ≠ [] := by
  rw [segmentFits, if_pos rfl]

theorem forall₂_segmentFits_star :
    List.Forall₂ segmentFits ["log".toList, ['*'], "traffic".toList, "forward".toList] rest ↔
      ∃ seg ≠ [], rest = ["log".toList, seg, "traffic".toList, "forward".toList] := by
  have hlog : ∀ seg, segmentFits "log".toList seg ↔ seg = "log".toList := fun seg => by
    rw [segmentFits, if_neg (by decide)]
  have htail : ∀ rest, List.Forall₂ segmentFits ["traffic".toList, "forward".toList] rest ↔
      rest = ["traffic".toList, "forward".toList] := fun rest => forall₂_segmentFits (by decide)
  constructor
  · intro h
    cases h with
    | cons hfirst h =>
      cases h with
      | cons hseg h =>
        exact ⟨_, segmentFits_star.mp hseg, by rw [(hlog _).mp hfirst, (htail _).mp h]⟩
  · rintro ⟨seg, hseg, rfl⟩
    exact .cons ((hlog _).mpr rfl) (.cons (segmentFits_star.mpr hseg) ((htail _).mpr rfl))

theorem splitOn_starPattern : "log/*/traffic/forward".toList.splitOn '/' =
    ["log".toList, ['*'], "traffic".toList, "forward".toList] := by decide

theorem isListed_iff :
    IsListed (apiRoot ++ rest) ↔
      (∃ pattern ∈ restRelayAllowlist, '*' ∉ pattern.toList ∧ rest = pattern.toList.splitOn '/') ∨
        ∃ seg ≠ [], rest = ["log".toList, seg, "traffic".toList, "forward".toList] := by
  have hliteral : ∀ pattern : String, '*' ∉ pattern.toList →
      ∀ seg ∈ pattern.toList.splitOn '/', seg ≠ ['*'] := by
    rintro pattern hstar seg hseg rfl
    obtain ⟨-, u, v, huv⟩ := splitOn_spec.2 _ hseg
    rw [← huv] at hstar
    exact hstar (List.mem_append_left _ List.mem_concat_self)
  constructor
  · rintro ⟨rest', happend, pattern, hmem, hfits⟩
    obtain rfl := List.append_cancel_left happend
    rcases restRelayAllowlist_cases pattern hmem with hstar | hstar
    · exact .inl ⟨pattern, hmem, hstar, (forall₂_segmentFits (hliteral pattern hstar)).mp hfits⟩
    · rw [hstar] at hfits
      exact .inr (forall₂_segmentFits_star.mp (splitOn_starPattern ▸ hfits))
  · rintro (⟨pattern, hmem, hstar, rfl⟩ | hseg)
    · exact ⟨_, rfl, pattern, hmem, (forall₂_segmentFits (hliteral pattern hstar)).mpr rfl⟩
    · refine ⟨rest, rfl, "log/*/traffic/forward", by decide, ?_⟩
      rw [splitOn_starPattern]
      exact forall₂_segmentFits_star.mpr hseg

theorem restRelayAllowlist_literal : ∀ pattern ∈ restRelayAllowlist, '*' ∉ pattern.toList →
    Plain pattern.toList ∧ pattern.toList.getLast? ≠ some 'd' ∧ pattern.toList ≠ [] ∧
      (pattern.toList.splitOn '/').length = 3 ∧
        (pattern.toList.splitOn '/')[1]? ≠ some "traffic".toList := by decide

/-! ## Where paths lead -/

theorem StaysInside.isListed {text : List Char} (h : StaysInside text) :
    IsListed (removeDots (apiRoot ++ segments text)) := by
  cases h with
  | @plain pattern hmem hstar =>
    rw [removeDots_plain (restRelayAllowlist_literal pattern hmem hstar).1]
    exact isListed_iff.mpr (.inl ⟨pattern, hmem, hstar, rfl⟩)
  | @star lead star seg hlead hstar hseg hleads =>
    have htail : ∀ c ∈ ([] : List Char), isSpace c = true := fun c hc => nomatch hc
    have hres := removeDots_star hlead hstar htail
    rw [List.append_nil] at hres
    rw [hres, hleads, List.append_assoc]
    exact isListed_iff.mpr (.inr ⟨seg, hseg, rfl⟩)
  | @mark lead star rest c hlead hstar hc hleads =>
    rw [removeDots_mark hlead hstar hc]
    exact hleads

theorem staysInside_of_literal {pattern : String} (hlead : IsMargin lead)
    (htail : ∀ c ∈ tail, isSpace c = true) (hmem : pattern ∈ restRelayAllowlist)
    (hstar : '*' ∉ pattern.toList)
    (h : IsListed (removeDots (apiRoot ++ segments (lead ++ pattern.toList ++ tail)))) :
    StaysInside (lead ++ pattern.toList ++ tail) := by
  obtain ⟨hplain, hlast, hne, -, -⟩ := restRelayAllowlist_literal pattern hmem hstar
  have htext : Plain (lead ++ pattern.toList ++ tail) :=
    (hlead.plain.append hplain).append fun c hc => plain_of_isSpace (htail c hc)
  rw [removeDots_plain htext] at h
  have hjoin : ['/'].intercalate ((lead ++ pattern.toList ++ tail).splitOn '/') =
      lead ++ pattern.toList ++ tail := List.intercalate_splitOn '/'
  rcases isListed_iff.mp h with ⟨pattern', hmem', hstar', hsplit⟩ | ⟨seg, -, hsplit⟩
  · rw [hsplit, List.intercalate_splitOn] at hjoin
    rw [← hjoin]
    exact .plain hmem' hstar'
  · -- the text ends in white space or as a text of the list does
    exfalso
    have hd : (lead ++ pattern.toList ++ tail).getLast? = some 'd' := by
      rw [← hjoin, hsplit]
      show ("log/".toList ++ (seg ++ "/traffic/forward".toList)).getLast? = some 'd'
      rw [List.getLast?_append_of_ne_nil _ (by simp), List.getLast?_append_of_ne_nil _ (by decide)]
      decide
    rcases List.eq_nil_or_concat tail with rfl | ⟨tail', c, rfl⟩
    · rw [List.append_nil, List.getLast?_append_of_ne_nil _ hne] at hd
      exact hlast hd
    · rw [List.concat_eq_append] at hd htail
      rw [← List.append_assoc, List.getLast?_concat] at hd
      obtain rfl := Option.some.inj hd
      exact absurd (htail 'd' List.mem_concat_self) (by decide)

theorem staysInside_of_star (hlead : IsMargin lead) (htail : ∀ c ∈ tail, isSpace c = true)
    (h : IsListed (removeDots (apiRoot ++ segments (lead ++ "log".toList ++ '/' ::
      (star ++ ("/traffic/forward".toList ++ tail)))))) :
    StaysInside (lead ++ "log".toList ++ '/' :: (star ++ ("/traffic/forward".toList ++ tail))) := by
  rcases uncut_or_mark star with hstar | ⟨star, c, rest, rfl, hstar, hc⟩
  · rw [removeDots_star hlead hstar htail] at h
    obtain ⟨rest, hrest, -⟩ := id h
    rw [hrest] at h
    rcases isListed_iff.mp h with ⟨pattern, hmem, hliteral, rfl⟩ | ⟨seg, hseg, rfl⟩
    · exfalso
      obtain ⟨-, -, -, hlength, htraffic⟩ := restRelayAllowlist_literal pattern hmem hliteral
      have hfour : (rooted (walk (logDirectory lead) (segments star))).length = 4 := by
        have hsix := congrArg List.length hrest
        rw [List.length_append, List.length_append, hlength] at hsix
        exact Nat.add_right_cancel hsix
      have hfifth := congrArg (fun l => l[4]?) hrest
      simp only [List.getElem?_append_right hfour.le, hfour] at hfifth
      exact htraffic hfifth.symm
    · have hinj := List.append_inj' (hrest.trans (List.append_assoc apiRoot ["log".toList, seg]
        ["traffic".toList, "forward".toList]).symm) rfl
      obtain ⟨-, hforward⟩ := List.cons.inj hinj.2
      have htailnil : tail = [] :=
        List.append_cancel_left ((List.cons.inj hforward).1.trans (List.append_nil _).symm)
      rw [htailnil, List.append_nil]
      exact .star hlead hstar hseg hinj.1
  · rw [List.append_assoc star, List.cons_append] at h ⊢
    rw [removeDots_mark hlead hstar hc] at h
    exact .mark hlead hstar hc h

theorem isListed_resourceOf_iff {path : String} (h : restPathAllowed path) :
    IsListed (resourceOf path) ↔ StaysInside (apiPath path) := by
  rw [resourceOf_eq]
  refine ⟨fun hlisted => ?_, StaysInside.isListed⟩
  obtain ⟨lead, text, tail, htext, hlead, htail, pattern, hmem, hmatch⟩ := apiPath_of_allowed h
  rw [htext] at hlisted ⊢
  rcases restRelayAllowlist_cases pattern hmem with hstar | hstar
  · obtain rfl := (globMatch_literal hstar).mp hmatch
    exact staysInside_of_literal hlead htail hmem hstar hlisted
  · rw [hstar] at hmatch
    obtain ⟨star, rfl⟩ := (globMatch_star (by decide) (by decide)).mp hmatch
    have hsplit : lead ++ ("log/".toList ++ (star ++ "/traffic/forward".toList)) ++ tail =
        lead ++ "log".toList ++ '/' :: (star ++ ("/traffic/forward".toList ++ tail)) := by
      have hlog : "log/".toList = "log".toList ++ ['/'] := rfl
      simp only [hlog, List.append_assoc, List.cons_append, List.nil_append]
    rw [hsplit] at hlisted ⊢
    exact staysInside_of_star hlead htail hlisted

/-! ## Jobs that are let through -/

section Jobs

variable {env : Loader} {specJson : String}

theorem checkRestSpec_ok_iff :
    checkRestSpec env specJson = .ok () ↔ ∃ call, restCall env specJson = .ok (.ok call) := by
  unfold checkRestSpec restCall
  cases env.loads specJson with
  | none => exact ⟨fun h => (nomatch h), fun ⟨_, h⟩ => (nomatch h)⟩
  | some v =>
    cases v with
    | obj spec =>
      dsimp only
      cases pathText ((get? spec "path").getD (.str "")) with
      | none => exact ⟨fun h => (nomatch h), fun ⟨_, h⟩ => (nomatch h)⟩
      | some text =>
        dsimp only
        by_cases hallowed : restPathAllowed text = true
        · rw [if_pos hallowed, if_pos hallowed]
          exact ⟨fun _ => ⟨_, rfl⟩, fun _ => rfl⟩
        · rw [if_neg hallowed, if_neg hallowed]
          exact ⟨fun h => (nomatch h), fun ⟨_, h⟩ => (nomatch Except.ok.inj h)⟩
    | _ => exact ⟨fun h => (nomatch h), fun ⟨_, h⟩ => (nomatch h)⟩

theorem restPathAllowed_of_restCall {call : RestCall} (h : restCall env specJson = .ok (.ok call)) :
    restPathAllowed call.path = true := by
  unfold restCall at h
  cases hloads : env.loads specJson with
  | none =>
    rw [hloads] at h
    exact nomatch Except.ok.inj h
  | some v =>
    rw [hloads] at h
    cases v with
    | obj spec =>
      dsimp only at h
      cases htext : pathText ((get? spec "path").getD (.str "")) with
      | none =>
        rw [htext] at h
        cases h
      | some text =>
        rw [htext] at h
        dsimp only at h
        by_cases hallowed : restPathAllowed text = true
        · rw [if_pos hallowed] at h
          obtain rfl := Except.ok.inj (Except.ok.inj h)
          exact hallowed
        · rw [if_neg hallowed] at h
          exact nomatch Except.ok.inj h
    | _ => cases h

theorem restCall_isOk_iff : (∃ r, restCall env specJson = .ok r) ↔ ReadableSpec env specJson := by
  unfold restCall ReadableSpec
  cases env.loads specJson with
  | none => exact ⟨fun _ _ hv => (nomatch hv), fun _ => ⟨_, rfl⟩⟩
  | some v =>
    cases v with
    | obj spec =>
      dsimp only
      cases htext : pathText ((get? spec "path").getD (.str "")) with
      | none =>
        refine ⟨fun ⟨_, h⟩ => (nomatch h), fun h => ?_⟩
        obtain ⟨spec', hv, hsome⟩ := h _ rfl
        obtain rfl := Json.obj.inj hv
        rw [htext] at hsome
        cases hsome
      | some text =>
        refine ⟨fun _ v hv => ?_, fun _ => ?_⟩
        · obtain rfl := Option.some.inj hv
          exact ⟨spec, rfl, by rw [htext]; rfl⟩
        · dsimp only
          by_cases hallowed : restPathAllowed text = true
          · exact ⟨_, if_pos hallowed⟩
          · exact ⟨_, if_neg hallowed⟩
    | _ =>
      refine ⟨fun ⟨_, h⟩ => (nomatch h), fun h => ?_⟩
      obtain ⟨_, hv, _⟩ := h _ rfl
      cases hv

theorem enqueueJob_rest {jobs : JobTable} {req : JobRequest} {jobId : String} {now : ℚ}
    (hkind : req.kind = "rest") :
    enqueueJob env jobs req jobId now =
      match checkRestSpec env req.command with
      | .error e => .error e
      | .ok () =>
        if jobs.any fun j => j.id = jobId then .error "UNIQUE constraint failed: command_jobs.id"
        else .ok (jobs ++ [newJob req jobId now]) := by
  have hvalid : ¬req.kind ∉ validJobKinds := by
    rw [hkind]
    decide
  unfold enqueueJob
  rw [if_neg hvalid]
  cases hcheck : checkRestSpec env req.command with
  | error e => simp [hkind, hcheck]
  | ok u => simp [hkind, hcheck]

theorem isRaised_checkRestSpec {e : String} (hread : ReadableSpec env specJson)
    (h : checkRestSpec env specJson = .error e) : isRaised e = false := by
  unfold checkRestSpec at h
  cases hloads : env.loads specJson with
  | none =>
    rw [hloads] at h
    rw [← Except.error.inj h]
    decide
  | some v =>
    obtain ⟨spec, rfl, hsome⟩ := hread v hloads
    obtain ⟨text, htext⟩ := Option.isSome_iff_exists.mp hsome
    rw [hloads] at h
    dsimp only at h
    rw [htext] at h
    dsimp only at h
    by_cases hallowed : restPathAllowed text = true
    · rw [if_pos hallowed] at h
      cases h
    · rw [if_neg hallowed] at h
      rw [← Except.error.inj h, isRaised, startsWith]
      simp only [String.toList_append]
      rfl

/-! ## Main result -/

/-- The relay lets exactly the listed resources through, on both sides and without exceptions,
exactly where the path stays inside and the JSON of the job can be read. -/
theorem restBoundary_iff {path : String} :
    RestBoundary env path specJson ↔
      (restPathAllowed path = true → StaysInside (apiPath path)) ∧ ReadableSpec env specJson := by
  constructor
  · intro h
    refine ⟨fun hallowed => (isListed_resourceOf_iff hallowed).mp (h.listed hallowed),
      restCall_isOk_iff.mp ?_⟩
    obtain ⟨result, hresult⟩ := h.answered fun _ => .ok ""
    obtain ⟨r, hr, -⟩ := Outcomes.map_ok hresult
    exact ⟨r, hr⟩
  · rintro ⟨hstays, hread⟩
    refine ⟨fun hallowed => (isListed_resourceOf_iff hallowed).mpr (hstays hallowed), ?_,
      fun _ => restPathAllowed_of_restCall, fun apiGet => ?_, ?_⟩
    · rintro jobs req jobId now hkind rfl hfresh
      have hnew : ¬(jobs.any fun j => j.id = jobId) = true := fun hany => by
        obtain ⟨j, hj, hid⟩ := List.any_eq_true.mp hany
        exact hfresh j hj (of_decide_eq_true hid)
      rw [enqueueJob_rest hkind, ← checkRestSpec_ok_iff]
      cases checkRestSpec env req.command with
      | error e => exact ⟨fun ⟨_, h⟩ => (nomatch h), fun h => (nomatch h)⟩
      | ok _ => exact ⟨fun _ => rfl, fun _ => ⟨_, if_neg hnew⟩⟩
    · obtain ⟨r, hr⟩ := restCall_isOk_iff.mpr hread
      exact ⟨_, by rw [executeRestJob, hr]; rfl⟩
    · rintro jobs req jobId now e hkind rfl h
      rw [enqueueJob_rest hkind] at h
      cases hcheck : checkRestSpec env req.command with
      | error e' =>
        rw [hcheck] at h
        obtain rfl := Except.error.inj h
        exact isRaised_checkRestSpec hread hcheck
      | ok _ =>
        rw [hcheck] at h
        dsimp only at h
        split at h
        · rw [← Except.error.inj h]
          decide
        · exact nomatch h

end Jobs

/-! ## A path into the configuration -/

/-- The text for the star leads up and into `cmdb`. -/
def cmdbPath : String := "log/%2e%2e/cmdb/firewall/policy?x=/traffic/forward"

/-- The relay lets a path into the configuration through, and a job whose JSON is a list raises. -/
theorem relay_reaches_cmdb : (¬ ∀ (env : Loader) (path specJson : String),
      RestBoundary env path specJson) ∧
    restPathAllowed cmdbPath = true ∧
      resourceOf cmdbPath = apiRoot ++ "cmdb/firewall/policy".toList.splitOn '/' ∧
        restCall ⟨fun _ => some (.arr []), fun _ => "[]"⟩ "[]" = .error "AttributeError: get" := by
  have hallowed : restPathAllowed cmdbPath = true := by decide
  have hresource : resourceOf cmdbPath = apiRoot ++ "cmdb/firewall/policy".toList.splitOn '/' := by
    decide
  refine ⟨fun hclaim => ?_, hallowed, hresource, rfl⟩
  have hlisted := (hclaim bareLoader cmdbPath "").listed hallowed
  rw [hresource] at hlisted
  rcases isListed_iff.mp hlisted with ⟨pattern, hmem, -, hsplit⟩ | ⟨seg, -, hsplit⟩
  · have hnone : ∀ pattern ∈ restRelayAllowlist,
        "cmdb/firewall/policy".toList.splitOn '/' ≠ pattern.toList.splitOn '/' := by decide
    exact hnone pattern hmem hsplit
  · have hthree : ("cmdb/firewall/policy".toList.splitOn '/').length = 3 := by decide
    rw [hsplit] at hthree
    exact nomatch hthree

end SentinelNet.Probes
