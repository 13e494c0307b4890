import SentinelNet.PolicyTest.Ace

/-!
# The entry parser against the device

What `parse_ace_line` makes of an extended entry, token by token, and how the rule it returns
compares with the device's meaning of the entry.

* `parseAceLine_of_tokens`: the rule of an entry whose ports are read.
* `ace_sound_iff`: when the rule has the packets of the device.
-/

namespace SentinelNet.PolicyTest

open PyText

/-! ## Words and addresses -/

theorem lower_notMem_aceWords {t : String} (h : t.toList.head?.any Char.isDigit) :
    lower t ∉ aceWords := by
  have hall : ∀ w ∈ aceWords, w.toList.head?.any Char.isDigit = false := by decide
  intro hmem
  have hlow := hall _ hmem
  rw [lower, String.toList_ofList] at hlow
  rcases hcs : t.toList with _ | ⟨c, cs⟩
  · rw [hcs] at h
    exact absurd h (by decide)
  · rw [hcs] at h hlow
    have hc : c.isDigit = true := by simpa using h
    rw [List.map_cons, toLower_of_isDigit hc] at hlow
    simp [hc] at hlow

theorem head?_decimal_isDigit (n : ℕ) : (decimal n).head?.any Char.isDigit = true := by
  rcases hd : decimal n with _ | ⟨c, cs⟩
  · have hdig := isDigits_decimal n
    rw [hd] at hdig
    exact absurd hdig (by decide)
  · have hc : c.isDigit = true := isDigit_of_mem_decimal (by rw [hd]; exact List.mem_cons_self ..)
    simpa using hc

theorem lower_intToIp_notMem (a : Addr) : lower (intToIp a) ∉ aceWords := by
  refine lower_notMem_aceWords ?_
  have hhead := head?_decimal_isDigit (Ipv4.part a 0)
  rw [intToIp, String.toList_ofList, Ipv4.format, List.head?_append]
  rcases hd : (decimal (Ipv4.part a 0)).head? with _ | c
  · rw [hd] at hhead
    exact absurd hhead (by decide)
  · rw [hd] at hhead
    exact hhead

namespace PortTok

theorem lower_text_notMem (t : PortTok) : lower t.text ∉ aceWords := by
  cases t with
  | number n =>
    refine lower_notMem_aceWords ?_
    have hdig := n.digits
    rw [text]
    rcases hcs : n.text.toList with _ | ⟨c, cs⟩
    · rw [isdigit, hcs] at hdig
      exact absurd hdig (by decide)
    · rw [isdigit, hcs] at hdig
      simp only [isDigits, Bool.and_eq_true, List.all_cons] at hdig
      simpa using hdig.2.1
  | keyword k => exact k.notReserved

theorem isIp_text (t : PortTok) : isIp t.text = false := by
  rw [Bool.eq_false_iff]
  intro hq
  cases t with
  | number n =>
    have hdot : '.' ∈ n.text.toList := Ipv4.dot_mem_of_isQuad hq
    exact absurd (isDigit_of_isdigit n.digits hdot) (by decide)
  | keyword k =>
    have hd := Ipv4.head?_isDigit_of_isQuad hq
    have hl := k.letter
    rw [text] at hd
    rcases hcs : k.text.toList with _ | ⟨c, cs⟩
    · rw [hcs] at hl
      exact absurd hl (by decide)
    · rw [hcs] at hl hd
      have hlow : c.toLower.isDigit = false := isDigit_toLower_of_isAlpha (by simpa using hl)
      have hdig : c.isDigit = true := by simpa using hd
      rw [toLower_of_isDigit hdig, hdig] at hlow
      exact absurd hlow (by decide)

end PortTok

/-! ## The consumers on the tokens of an entry -/

variable {groups : ObjectGroups}

theorem consumeIpSpec_tokens (spec : AddrSpec) (rest : List String) :
    consumeIpSpec groups (spec.tokens ++ rest) = .ok (some ([spec.cube], rest, [])) := by
  have hword {w : String} (hw : w ∈ aceWords) (a : Addr) : lower (intToIp a) ≠ w :=
    fun h => lower_intToIp_notMem a (h ▸ hw)
  cases spec with
  | any => rfl
  | host a =>
    change consumeIpSpec groups ("host" :: intToIp a :: rest) = _
    have hlow : lower "host" = "host" := by decide
    simp only [consumeIpSpec, hlow]
    rw [if_neg (by decide), if_pos trivial, if_pos (isIp_intToIp a), Cube.fromIp,
      ipToInt_intToIp]
    rfl
  | wild a w =>
    change consumeIpSpec groups (intToIp a :: intToIp w :: rest) = _
    simp only [consumeIpSpec]
    rw [if_neg (not_or.mpr ⟨hword (by decide) a, hword (by decide) a⟩),
      if_neg (hword (by decide) a), if_neg (hword (by decide) a), if_pos (isIp_intToIp a),
      if_pos (isIp_intToIp w), Cube.fromWildcard, ipToInt_intToIp, ipToInt_intToIp]
    rfl

theorem consumeIpSpec_port (t : PortTok) (rest : List String) :
    consumeIpSpec groups (t.text :: rest) = .ok none := by
  have hword {w : String} (hw : w ∈ aceWords) : lower t.text ≠ w :=
    fun h => t.lower_text_notMem (h ▸ hw)
  simp only [consumeIpSpec]
  rw [if_neg (not_or.mpr ⟨hword (by decide), hword (by decide)⟩), if_neg (hword (by decide)),
    if_neg (hword (by decide)), if_neg (by simp [t.isIp_text])]
  rfl

theorem consumePortSpec_of_notMem {toks : List String} (h : ∀ t ∈ toks.head?,
      lower t ∉ ["eq", "gt", "lt", "neq", "range", "object-group"]) :
    consumePortSpec groups toks = (none, toks) := by
  rcases toks with _ | ⟨t, args⟩
  · rfl
  · have ht := h t rfl
    simp only [List.mem_cons, not_or] at ht
    simp only [consumePortSpec]
    rw [if_neg (by tauto), if_neg (by tauto), if_neg (by tauto)]

theorem consumePortSpec_tokens (op : PortOp) (rest : List String) :
    consumePortSpec groups (op.tokens ++ rest) =
      (op.read, op.more.map PortTok.text ++ rest) := by
  cases op with
  | eq p more =>
    have hlow : lower "eq" = "eq" := by decide
    change consumePortSpec groups ("eq" :: p.text :: (more.map PortTok.text ++ rest)) = _
    simp only [consumePortSpec, hlow]
    rw [if_pos (by decide)]
    rfl
  | neq p =>
    have hlow : lower "neq" = "neq" := by decide
    change consumePortSpec groups ("neq" :: p.text :: rest) = _
    simp only [consumePortSpec, hlow]
    rw [if_pos (by decide)]
    rfl
  | gt p =>
    have hlow : lower "gt" = "gt" := by decide
    change consumePortSpec groups ("gt" :: p.text :: rest) = _
    simp only [consumePortSpec, hlow]
    rw [if_pos (by decide)]
    rfl
  | lt p =>
    have hlow : lower "lt" = "lt" := by decide
    change consumePortSpec groups ("lt" :: p.text :: rest) = _
    simp only [consumePortSpec, hlow]
    rw [if_pos (by decide)]
    rfl
  | range p q =>
    have hlow : lower "range" = "range" := by decide
    change consumePortSpec groups ("range" :: p.text :: q.text :: rest) = _
    simp only [consumePortSpec, hlow]
    rw [if_neg (by decide), if_pos (by decide)]
    rfl

theorem qualifierStep_port (t : PortTok) (nextTok : Option String) (q : Qualifiers) :
    qualifierStep false (lower t.text) nextTok q = (q.narrow (lower t.text), false) := by
  have hword {w : String} (hw : w ∈ aceWords) : lower t.text ≠ w :=
    fun h => t.lower_text_notMem (h ▸ hw)
  have hin {l : List String} (hl : ∀ w ∈ l, w ∈ aceWords) : lower t.text ∉ l :=
    fun h => t.lower_text_notMem (hl _ h)
  rw [qualifierStep, if_neg (hword (by decide)), if_neg (hin (by decide)),
    if_neg (hin (by decide)), if_neg (not_or.mpr ⟨hword (by decide), hin (by decide)⟩),
    if_neg Bool.false_ne_true]

theorem trailingQualifiers_ports (ports : List PortTok) (toks : List String) (q : Qualifiers) :
    trailingQualifiers false (ports.map PortTok.text ++ toks) q =
      trailingQualifiers false toks
        { q with narrowing := q.narrowing ++ ports.map fun t => lower t.text } := by
  induction ports generalizing q with
  | nil => simp
  | cons t ports ih =>
    rw [List.map_cons, List.cons_append, trailingQualifiers_cons, qualifierStep_port,
      if_neg Bool.false_ne_true, ih]
    simp [Qualifiers.narrow]

theorem trailingQualifiers_keywords (established log : Bool) (narrowing : List String) :
    trailingQualifiers false
        ((if established then ["established"] else []) ++ (if log then ["log"] else []))
        { narrowing := narrowing } =
      { established := established, narrowing := narrowing } := by
  cases established <;> cases log <;> rfl

/-! ## The rule of an entry -/

theorem head?_tokens_notMem (spec : AddrSpec) (rest : List String) :
    ∀ t ∈ (spec.tokens ++ rest).head?,
      lower t ∉ ["eq", "gt", "lt", "neq", "range", "object-group"] := by
  intro t ht
  have hsub : ∀ w ∈ ["eq", "gt", "lt", "neq", "range", "object-group"], w ∈ aceWords := by decide
  cases spec with
  | any =>
    obtain rfl : "any" = t := Option.some.inj ht
    decide
  | host a =>
    obtain rfl : "host" = t := Option.some.inj ht
    decide
  | wild a w =>
    obtain rfl : intToIp a = t := Option.some.inj ht
    exact fun hmem => lower_intToIp_notMem a (hsub _ hmem)

theorem consumePortSpec_option (op : Option PortOp) {rest : List String} (hrest : ∀ t ∈ rest.head?,
      lower t ∉ ["eq", "gt", "lt", "neq", "range", "object-group"]) :
    consumePortSpec groups (op.toList.flatMap PortOp.tokens ++ rest) =
      (op.bind PortOp.read, (morePorts op).map PortTok.text ++ rest) := by
  rcases op with _ | op
  · exact consumePortSpec_of_notMem hrest
  · simpa [morePorts] using consumePortSpec_tokens op rest

namespace Ace

def action (ace : Ace) : Action := if ace.permit then .permit else .deny

/-- The rule of an entry: opaque when `eq` has several source ports, and with the destination
ports after the first one as qualifiers that are not evaluated. -/
def rule (ace : Ace) (ruleId rawLine : String) : Rule :=
  if morePorts ace.srcOp = [] then
    let narrowing := (morePorts ace.dstOp).map fun t => lower t.text
    { id := if ruleId = "" then "ext" else ruleId
      action := ace.action
      fields :=
        { srcIps := [ace.src.cube]
          dstIps := [ace.dst.cube]
          srcPorts := ace.srcOp.bind PortOp.read
          dstPorts := ace.dstOp.bind PortOp.read
          protos := some [ace.proto]
          established := ace.established
          narrowingQuals := narrowing }
      rawText := rawLine
      unresolved :=
        if narrowing = [] then [] else ["ACE qualifier not evaluated: " ++ join ", " narrowing] }
  else opaqueRule ruleId ace.action rawLine "destination address specification not understood"

/-- The protocol token of an entry. -/
def protoTok (ace : Ace) : String := if ace.udp then "udp" else "tcp"

/-- The tokens of an entry after its protocol. -/
def specTokens (ace : Ace) : List String :=
  ace.src.tokens ++ (ace.srcOp.toList.flatMap PortOp.tokens ++ (ace.dst.tokens ++
    (ace.dstOp.toList.flatMap PortOp.tokens ++
      ((if ace.established then ["established"] else []) ++
        (if ace.log then ["log"] else [])))))

theorem extendedSpecs_tokens (ace : Ace) (ruleId rawLine : String) :
    extendedSpecs ruleId ace.action rawLine groups ace.protoTok (some [ace.proto])
      ace.specTokens = .ok (ace.rule ruleId rawLine) := by
  have hicmp : decide (ace.protoTok = "icmp" ∨ ace.protoTok = "1") = false := by
    rw [protoTok]
    cases ace.udp <;> decide
  have hend : ∀ t ∈ ((if ace.established then ["established"] else []) ++
      (if ace.log then ["log"] else [])).head?,
      lower t ∉ ["eq", "gt", "lt", "neq", "range", "object-group"] := by
    cases ace.established <;> cases ace.log <;> decide
  rw [extendedSpecs, specTokens, consumeIpSpec_tokens]
  simp only [bind, Except.bind]
  rw [consumePortSpec_option ace.srcOp (head?_tokens_notMem ace.dst _)]
  dsimp only
  rcases hmore : morePorts ace.srcOp with _ | ⟨t, ts⟩
  · rw [List.map_nil, List.nil_append, consumeIpSpec_tokens]
    dsimp only
    rw [consumePortSpec_option ace.dstOp hend]
    dsimp only
    rw [consumeTrailingQualifiers, hicmp, trailingQualifiers_ports, List.nil_append,
      trailingQualifiers_keywords, rule, if_pos hmore]
    rfl
  · rw [List.map_cons, List.cons_append, consumeIpSpec_port]
    dsimp only
    rw [rule, if_neg (by simp [hmore])]
    rfl

theorem protoFromName_protoTok (ace : Ace) : protoFromName ace.protoTok = some ace.proto := by
  have htcp : protoFromName "tcp" = some 6 := by decide +kernel
  have hudp : protoFromName "udp" = some 17 := by decide +kernel
  rw [protoTok, proto]
  cases ace.udp
  · exact htcp
  · exact hudp

theorem extendedRule_tokens (ace : Ace) (ruleId rawLine : String) :
    extendedRule ruleId ace.action rawLine groups (ace.protoTok :: ace.specTokens) =
      .ok (ace.rule ruleId rawLine) := by
  have hlow : lower ace.protoTok = ace.protoTok := by
    rw [protoTok]
    cases ace.udp <;> decide
  rw [extendedRule, hlow, protoFromName_protoTok, protocolRule]
  exact extendedSpecs_tokens ace ruleId rawLine

end Ace

variable {seq kind : String}

theorem aceHeader_of_cons {s : String} {c : Char} {cs : List Char}
    (hs : s.toList = c :: cs) (hc : c = 'p' ∨ c = 'd') : aceHeader s seq kind = (seq, kind, s) := by
  have hnum : Regex.matchStart reNumbered s.toList = none := by
    refine Regex.matchStart_eq_none (Regex.run_seq_eq_nil ?_)
    refine Regex.run_seq_eq_nil (Regex.run_chr_eq_nil fun d hd => ?_)
    rw [hs, List.head?_cons, Option.mem_some_iff] at hd
    obtain rfl : c = d := hd
    rcases hc with rfl | rfl <;> decide
  have hseq : Regex.matchStart reSeq s.toList = none := by
    refine Regex.matchStart_eq_none (Regex.run_seq_eq_nil (Regex.run_group_eq_nil ?_))
    refine Regex.run_many_eq_nil Nat.one_pos fun d hd => ?_
    rw [hs, List.head?_cons, Option.mem_some_iff] at hd
    obtain rfl : c = d := hd
    rcases hc with rfl | rfl <;> decide
  rw [aceHeader, hnum]
  dsimp only
  rw [hseq]

/-- The token and the action of an entry. -/
def actionWord (permit : Bool) : String := if permit then "permit" else "deny"

variable {line : String}

theorem parseAceLine_of_action {permit : Bool} {toks : List String} {rule : Rule}
    (hline : split line = actionWord permit :: toks)
    (hstd : startsWith kind "standard" = false) (hnamed : kind ≠ "named-std")
    (hrule : extendedRule seq (if permit then .permit else .deny) line groups toks = .ok rule) :
    parseAceLine line seq kind groups = some rule := by
  -- the stripped line starts with the action
  have hsplit : split (strip line) = split line := by
    rw [split, split, strip, String.toList_ofList, splitWs_stripChars]
  obtain ⟨c, cs, hcs, hc⟩ : ∃ c cs, (strip line).toList = c :: cs ∧ (c = 'p' ∨ c = 'd') := by
    obtain ⟨t, ts, hsp, ht, -⟩ := List.map_eq_cons_iff.mp hline
    obtain ⟨rest, hrest⟩ := stripChars_of_splitWs hsp
    have htl : t = (actionWord permit).toList := by rw [← ht, String.toList_ofList]
    rw [strip, String.toList_ofList, hrest, htl, actionWord]
    cases permit
    · exact ⟨'d', 'e' :: 'n' :: 'y' :: rest, rfl, Or.inr rfl⟩
    · exact ⟨'p', 'e' :: 'r' :: 'm' :: 'i' :: 't' :: rest, rfl, Or.inl rfl⟩
  have hne : ¬ (strip line = "" ∨ startsWith (strip line) "!" = true) := by
    rw [startsWith, hcs, ← String.toList_inj, hcs]
    rcases hc with rfl | rfl <;> simp
  have hremark : ¬ (startsWith (lower (strip line)) "remark " = true ∨
      lower (strip line) = "remark") := by
    rw [startsWith, ← String.toList_inj, lower, String.toList_ofList, hcs]
    rcases hc with rfl | rfl <;> simp
  have haction : actionOf (lower (actionWord permit)) =
      some (if permit then .permit else .deny) := by
    rw [actionWord]
    cases permit <;> decide
  rw [parseAceLine, if_neg hne, aceHeader_of_cons hcs hc]
  dsimp only
  rw [if_neg hremark, hsplit, hline]
  dsimp only
  rw [haction]
  dsimp only
  rw [if_neg (not_or.mpr ⟨by simp [hstd], hnamed⟩), hrule]

/-- The first token of an entry. -/
def Ace.actionTok (ace : Ace) : String := if ace.permit then "permit" else "deny"

/-- The rule the parser returns for an entry. -/
theorem parseAceLine_of_tokens {ace : Ace}
    (hline : split line = ace.tokens) (hstd : startsWith kind "standard" = false)
    (hnamed : kind ≠ "named-std") :
    parseAceLine line seq kind groups = some (ace.rule seq line) := by
  have htoks : split line = ace.actionTok :: ace.protoTok :: ace.specTokens := hline
  exact parseAceLine_of_action htoks hstd hnamed (ace.extendedRule_tokens seq line)

/-! ## The rule against the device -/

/-- A flow says everything about a packet. -/
structure Describes (flow : Flow) (p : Packet) : Prop where
  src : ipToInt flow.srcIp = .ok p.src
  dst : ipToInt flow.dstIp = .ok p.dst
  proto : protoFromName flow.proto = some p.proto
  sport : flow.sport = some (p.sport : ℤ)
  dport : flow.dport = some (p.dport : ℤ)
  established : flow.isEstablished = p.established

/-- The flow of a packet of an entry's protocol. -/
def Ace.flow (ace : Ace) (p : Packet) : Flow where
  srcIp := intToIp p.src
  dstIp := intToIp p.dst
  proto := ace.protoTok
  sport := some (p.sport : ℤ)
  dport := some (p.dport : ℤ)
  established := p.established

theorem Ace.describes_flow {ace : Ace} {p : Packet} (h : p.proto = ace.proto) :
    Describes (ace.flow p) p where
  src := ipToInt_intToIp p.src
  dst := ipToInt_intToIp p.dst
  proto := by rw [Ace.flow, h]; exact ace.protoFromName_protoTok
  sport := rfl
  dport := rfl
  established := Bool.or_false _

/-- The ports the parser's reading of an optional operator takes. -/
def TakesPort (op : Option PortOp) (x : Fin 65536) : Prop := ∀ o ∈ op, o.Takes x

theorem admits_read_iff {op : Option PortOp} {x : Fin 65536} :
    admits PortSet.containsPort (op.bind PortOp.read) (some ((x : ℕ) : ℤ)) = true ↔
      TakesPort op x := by
  rcases op with _ | o
  · simp [admits, TakesPort]
  · have h := @PortOp.admits_iff o x (Nat.le_of_lt_succ x.isLt)
    rw [PortOp.Admits] at h
    simpa [TakesPort] using h

/-- The packets the parser's rule of an entry takes. -/
def Ace.Takes (ace : Ace) (p : Packet) : Prop :=
  p.proto = ace.proto ∧ ace.src.Has p.src ∧ ace.dst.Has p.dst ∧ TakesPort ace.srcOp p.sport ∧
    TakesPort ace.dstOp p.dport ∧ (ace.established = true → p.established = true)

variable {ruleId : String}

theorem Ace.mayMatch_rule_iff {ace : Ace} {flow : Flow} {p : Packet}
    (hmore : morePorts ace.srcOp = []) (h : Describes flow p) :
    (ace.rule ruleId line).fields.mayMatch flow = true ↔ ace.Takes p := by
  have hsrc : cubesHave [ace.src.cube] flow.srcIp = true ↔ ace.src.Has p.src := by
    rw [cubesHave, h.src]
    simpa using AddrSpec.containsIp_cube
  have hdst : cubesHave [ace.dst.cube] flow.dstIp = true ↔ ace.dst.Has p.dst := by
    rw [cubesHave, h.dst]
    simpa using AddrSpec.containsIp_cube
  have hproto : admits setHas (some [ace.proto]) (protoFromName flow.proto) = true ↔
      p.proto = ace.proto := by
    rw [h.proto]
    simp [admits, setHas]
  rw [rule, if_pos hmore, FieldSet.mayMatch, FieldSet.matchKnownDimensions_iff]
  dsimp only
  rw [h.sport, h.dport, h.established, hsrc, hdst, hproto, admits_read_iff, admits_read_iff]
  constructor
  · rintro ⟨he, hp, -, hs, hd, hsp, hdp, -, -⟩
    exact ⟨hp, hs, hd, hsp, hdp, he⟩
  · rintro ⟨hp, hs, hd, hsp, hdp, he⟩
    exact ⟨he, hp, rfl, hs, hd, hsp, hdp, rfl, rfl⟩

theorem opaqueRule_mayMatch {rawLine reason : String} {action : Action} {flow : Flow}
    {p : Packet} (h : Describes flow p) :
    (opaqueRule ruleId action rawLine reason).fields.mayMatch flow = true := by
  have hany (ip : String) (a : Addr) (hip : ipToInt ip = .ok a) :
      cubesHave [Cube.any] ip = true := by
    rw [cubesHave, hip]
    simp
  rw [FieldSet.mayMatch, FieldSet.matchKnownDimensions_iff]
  exact ⟨fun he => absurd he Bool.false_ne_true, rfl, rfl, hany _ _ h.src, hany _ _ h.dst, rfl, rfl,
    rfl, rfl⟩

/-- The soundness of a rule for an entry: it may match every packet of the entry, and when it is
decidable it matches exactly these. -/
def SoundFor (names : String → Fin 65536) (ace : Ace) (rule : Rule) : Prop :=
  (∀ flow p, Describes flow p → ace.Matches names p → rule.fields.mayMatch flow = true) ∧
    (rule.fields.isOpaque = false → rule.unresolved = [] →
      ∀ flow p, Describes flow p → (rule.fields.matchesFlow flow = true ↔ ace.Matches names p))

section Products

variable {names : String → Fin 65536} {ace : Ace}

theorem forall_matches_takes_iff :
    (∀ p : Packet, ace.Matches names p → ace.Takes p) ↔
      {x | HasPort names ace.srcOp x} ×ˢ {x | HasPort names ace.dstOp x} ⊆
        {x | TakesPort ace.srcOp x} ×ˢ {x | TakesPort ace.dstOp x} := by
  obtain ⟨src, hsrc⟩ := ace.src.exists_has
  obtain ⟨dst, hdst⟩ := ace.dst.exists_has
  constructor
  · rintro h ⟨s, d⟩ ⟨hs, hd⟩
    obtain ⟨-, -, -, hs', hd', -⟩ :=
      h ⟨src, dst, ace.proto, s, d, true⟩ ⟨rfl, hsrc, hdst, hs, hd, fun _ => rfl⟩
    exact ⟨hs', hd'⟩
  · rintro h p ⟨hp, hs, hd, hsp, hdp, he⟩
    obtain ⟨hsp', hdp'⟩ := h (show (p.sport, p.dport) ∈ _ from ⟨hsp, hdp⟩)
    exact ⟨hp, hs, hd, hsp', hdp', he⟩

theorem forall_takes_iff_matches_iff :
    (∀ p : Packet, ace.Takes p ↔ ace.Matches names p) ↔
      {x | TakesPort ace.srcOp x} ×ˢ {x | TakesPort ace.dstOp x} =
        {x | HasPort names ace.srcOp x} ×ˢ {x | HasPort names ace.dstOp x} := by
  obtain ⟨src, hsrc⟩ := ace.src.exists_has
  obtain ⟨dst, hdst⟩ := ace.dst.exists_has
  constructor
  · intro h
    ext ⟨s, d⟩
    have hp := h ⟨src, dst, ace.proto, s, d, true⟩
    constructor
    · rintro ⟨hs, hd⟩
      obtain ⟨-, -, -, hs', hd', -⟩ := hp.mp ⟨rfl, hsrc, hdst, hs, hd, fun _ => rfl⟩
      exact ⟨hs', hd'⟩
    · rintro ⟨hs, hd⟩
      obtain ⟨-, -, -, hs', hd', -⟩ := hp.mpr ⟨rfl, hsrc, hdst, hs, hd, fun _ => rfl⟩
      exact ⟨hs', hd'⟩
  · intro h p
    have hp : (p.sport, p.dport) ∈ {x | TakesPort ace.srcOp x} ×ˢ {x | TakesPort ace.dstOp x} ↔
        (p.sport, p.dport) ∈ {x | HasPort names ace.srcOp x} ×ˢ {x | HasPort names ace.dstOp x} := by
      rw [h]
    simp only [Set.mem_prod, Set.mem_ofPred_eq] at hp
    rw [Ace.Takes, Ace.Matches]
    tauto

theorem takes_prod_eq_iff :
    {x | TakesPort ace.srcOp x} ×ˢ {x | TakesPort ace.dstOp x} =
        {x | HasPort names ace.srcOp x} ×ˢ {x | HasPort names ace.dstOp x} ↔
      {x | TakesPort ace.srcOp x} = {x | HasPort names ace.srcOp x} ∧
        {x | TakesPort ace.dstOp x} = {x | HasPort names ace.dstOp x} := by
  have hne (op : Option PortOp) : {x | TakesPort op x}.Nonempty := by
    rcases op with _ | o
    · exact ⟨0, fun o ho => absurd ho (by simp)⟩
    · obtain ⟨x, hx⟩ := o.exists_takes
      refine ⟨x, fun o' ho' => ?_⟩
      obtain rfl : o = o' := Option.some.inj ho'
      exact hx
  exact Set.prod_eq_prod_iff_of_nonempty ((hne _).prod (hne _))

variable {op : Option PortOp}

theorem takes_eq_iff_exact (hmore : morePorts op = []) :
    {x | TakesPort op x} = {x | HasPort names op x} ↔ ∀ o ∈ op, o.Exact names := by
  rcases op with _ | o
  · simp [TakesPort, HasPort]
  · have ho : o.more = [] := by simpa [morePorts] using hmore
    simp only [TakesPort, HasPort, Option.mem_def, Option.some.injEq, forall_eq', Set.ext_iff,
      Set.mem_ofPred_eq]
    rw [← PortOp.exact_iff ho, PortOp.Agrees]
    exact forall_congr' fun x => Iff.comm

theorem has_subset_iff_covered :
    {x | HasPort names op x} ⊆ {x | TakesPort op x} ↔ ∀ o ∈ op, o.Covered names := by
  rcases op with _ | o
  · simp [TakesPort, HasPort]
  · simp only [TakesPort, HasPort, Option.mem_def, Option.some.injEq, forall_eq',
      Set.ofPred_subset_ofPred]
    exact PortOp.covered_iff

theorem has_eq_empty_iff_void : {x | HasPort names op x} = ∅ ↔ ∃ o ∈ op, o.Void names := by
  rcases op with _ | o
  · simp [HasPort, Set.eq_empty_iff_forall_notMem]
  · simp only [HasPort, Option.mem_def, Option.some.injEq, forall_eq', exists_eq_left',
      Set.eq_empty_iff_forall_notMem, Set.mem_ofPred_eq]
    exact PortOp.void_iff

theorem not_void_of_morePorts (h : morePorts op ≠ []) : ¬ ∃ o ∈ op, o.Void names := by
  rintro ⟨o, ho, hvoid⟩
  obtain rfl : op = some o := ho
  cases o with
  | eq p more => exact hvoid
  | neq p => exact hvoid
  | gt p => exact h rfl
  | lt p => exact h rfl
  | range p q => exact hvoid

end Products

theorem Ace.soundFor_rule_iff {names : String → Fin 65536} {ace : Ace} :
    SoundFor names ace (ace.rule ruleId line) ↔ ace.ReadFaithfully names := by
  rw [ReadFaithfully]
  by_cases hsrc : morePorts ace.srcOp = []
  · have hmay : (∀ flow p, Describes flow p → ace.Matches names p →
        (ace.rule ruleId line).fields.mayMatch flow = true) ↔
        ∀ p : Packet, ace.Matches names p → ace.Takes p := by
      constructor
      · intro h p hp
        exact (mayMatch_rule_iff hsrc (describes_flow hp.1)).mp (h _ p (describes_flow hp.1) hp)
      · intro h flow p hd hp
        exact (mayMatch_rule_iff hsrc hd).mpr (h p hp)
    have hclear : (ace.rule ruleId line).fields.isOpaque = false := by
      rw [rule, if_pos hsrc]
    have hmatch (flow : Flow) : (ace.rule ruleId line).fields.matchesFlow flow =
        (ace.rule ruleId line).fields.mayMatch flow := by
      rw [FieldSet.matchesFlow, hclear, if_neg Bool.false_ne_true, FieldSet.mayMatch]
    rw [SoundFor, hmay, or_iff_right (not_not.mpr hsrc)]
    by_cases hdst : morePorts ace.dstOp = []
    · have hread : (ace.rule ruleId line).unresolved = [] := by
        rw [rule, if_pos hsrc]
        simp [hdst]
      rw [if_pos hdst, ← takes_eq_iff_exact hsrc, ← takes_eq_iff_exact hdst, ← takes_prod_eq_iff,
        ← forall_takes_iff_matches_iff]
      constructor
      · rintro ⟨-, h⟩ p
        by_cases hp : p.proto = ace.proto
        · rw [← h hclear hread _ p (describes_flow hp), hmatch,
            mayMatch_rule_iff hsrc (describes_flow hp)]
        · exact iff_of_false (fun ht => hp ht.1) fun hm => hp hm.1
      · intro h
        refine ⟨fun p hp => (h p).mpr hp, fun _ _ flow p hd => ?_⟩
        rw [hmatch, mayMatch_rule_iff hsrc hd]
        exact h p
    · have hunread : (ace.rule ruleId line).unresolved ≠ [] := by
        rw [rule, if_pos hsrc]
        simp [hdst]
      rw [if_neg hdst, forall_matches_takes_iff, Set.prod_subset_prod_iff, has_subset_iff_covered,
        has_subset_iff_covered, has_eq_empty_iff_void, has_eq_empty_iff_void]
      have hnv := @not_void_of_morePorts names _ hdst
      constructor
      · rintro ⟨h | h | h, -⟩
        · exact Or.inr h
        · exact Or.inl h
        · exact absurd h hnv
      · intro h
        exact ⟨h.elim (fun hv => Or.inr (Or.inl hv)) Or.inl, fun _ hu => absurd hu hunread⟩
  · refine iff_of_true ⟨fun flow p hd _ => ?_, fun hop => ?_⟩ (Or.inl hsrc)
    · rw [rule, if_neg hsrc]
      exact opaqueRule_mayMatch hd
    · rw [rule, if_neg hsrc] at hop
      exact absurd hop (by simp [opaqueRule])

/-- For every line that is written with the tokens of an extended entry, the returned rule may
match every packet the device matches, and matches exactly these when it is decidable, if and only
if the entry is read faithfully. -/
theorem ace_sound_iff {names : String → Fin 65536} {ace : Ace} {line seq kind : String}
    (hline : split line = ace.tokens) (hstd : startsWith kind "standard" = false)
    (hnamed : kind ≠ "named-std") :
    (∃ rule, parseAceLine line seq kind groups = some rule ∧ SoundFor names ace rule) ↔
      ace.ReadFaithfully names := by
  rw [parseAceLine_of_tokens hline hstd hnamed, ← Ace.soundFor_rule_iff]
  constructor
  · rintro ⟨rule, h, hsound⟩
    obtain rfl : ace.rule seq line = rule := Option.some.inj h
    exact hsound
  · intro h
    exact ⟨ace.rule seq line, rfl, h⟩

/-- `permit tcp any host 10.0.0.1 eq 443`. -/
def httpsEntry : Ace where
  permit := true
  udp := false
  src := .any
  srcOp := none
  dst := .host 0x0a000001
  dstOp := some (.eq (.number ⟨"443", by decide, by decide⟩) [])
  established := false
  log := false

theorem ace_sound_iff_https :
    (∃ rule, parseAceLine "permit tcp any host 10.0.0.1 eq 443" "" "extended" [] = some rule ∧
        SoundFor (fun _ => 0) httpsEntry rule) ↔
      httpsEntry.ReadFaithfully fun _ => 0 :=
  ace_sound_iff (by decide +kernel) (by decide) (by decide)

/-- An entry for everything TCP to the ports of an operator. -/
def tcpTo (op : PortOp) : Ace where
  permit := true
  udp := false
  src := .any
  srcOp := none
  dst := .any
  dstOp := some op
  established := false
  log := false

def eqTwoPorts : PortOp :=
  .eq (.number ⟨"80", by decide, by decide⟩) [.number ⟨"443", by decide, by decide⟩]

/-- `eq cmd`, with a keyword the parser's table does not have. -/
def eqCmd : PortOp := .eq (.keyword ⟨"cmd", by decide, by decide, by decide⟩) []

def ltHundred : PortOp := .lt (.number ⟨"100", by decide, by decide⟩)

/-- A packet to a TCP port. -/
def packetTo (dport : Fin 65536) : Packet where
  src := 0x0a000001
  dst := 0x0a000002
  proto := 6
  sport := 40000
  dport := dport
  established := false

/-- The second port of `eq` is lost, a keyword that is not known becomes any port, and `lt` has no
port 0. -/
theorem ace_ports_lost_and_widened :
    (∃ rule, parseAceLine "permit tcp any any eq 80 443" "" "extended" [] = some rule ∧
      Describes ((tcpTo eqTwoPorts).flow (packetTo 443)) (packetTo 443) ∧
      (tcpTo eqTwoPorts).Matches (fun _ => 514) (packetTo 443) ∧
      rule.fields.mayMatch ((tcpTo eqTwoPorts).flow (packetTo 443)) = false) ∧
    (∃ rule, parseAceLine "permit tcp any any eq cmd" "" "extended" [] = some rule ∧
      rule.fields.isOpaque = false ∧ rule.unresolved = [] ∧
      Describes ((tcpTo eqCmd).flow (packetTo 80)) (packetTo 80) ∧
      ¬ (tcpTo eqCmd).Matches (fun _ => 514) (packetTo 80) ∧
      rule.fields.matchesFlow ((tcpTo eqCmd).flow (packetTo 80)) = true) ∧
    (∃ rule, parseAceLine "permit tcp any any lt 100" "" "extended" [] = some rule ∧
      rule.fields.isOpaque = false ∧ rule.unresolved = [] ∧
      Describes ((tcpTo ltHundred).flow (packetTo 0)) (packetTo 0) ∧
      (tcpTo ltHundred).Matches (fun _ => 514) (packetTo 0) ∧
      rule.fields.matchesFlow ((tcpTo ltHundred).flow (packetTo 0)) = false) := by
  have htwo : (PortOp.eq (.number ⟨"80", by decide, by decide⟩)
      [.number ⟨"443", by decide, by decide⟩]).Has (fun _ => 514) 443 :=
    Or.inr ⟨_, List.mem_singleton_self _, by decide⟩
  have hdesc (op : PortOp) (port : Fin 65536) :
      Describes ((tcpTo op).flow (packetTo port)) (packetTo port) := Ace.describes_flow rfl
  refine ⟨⟨(tcpTo eqTwoPorts).rule "" "permit tcp any any eq 80 443", by decide +kernel,
      hdesc _ _, ?_, by decide +kernel⟩,
    ⟨(tcpTo eqCmd).rule "" "permit tcp any any eq cmd", by decide +kernel, by decide +kernel,
      by decide +kernel, hdesc _ _, ?_, by decide +kernel⟩,
    ⟨(tcpTo ltHundred).rule "" "permit tcp any any lt 100", by decide +kernel,
      by decide +kernel, by decide +kernel, hdesc _ _, ?_, by decide +kernel⟩⟩
  · refine ⟨rfl, trivial, trivial, fun o ho => absurd ho (by simp [tcpTo]), fun o ho => ?_,
      fun h => absurd h (by decide)⟩
    obtain rfl : eqTwoPorts = o := Option.some.inj ho
    exact htwo
  · rintro ⟨-, -, -, -, hport, -⟩
    rcases hport eqCmd rfl with h | ⟨r, hr, -⟩
    · exact absurd h (by decide)
    · exact nomatch hr
  · refine ⟨rfl, trivial, trivial, fun o ho => absurd ho (by simp [tcpTo]), fun o ho => ?_,
      fun h => absurd h (by decide)⟩
    obtain rfl : ltHundred = o := Option.some.inj ho
    change 0 < (PortTok.number ⟨"100", by decide, by decide⟩).value fun _ => 514
    decide

end SentinelNet.PolicyTest
