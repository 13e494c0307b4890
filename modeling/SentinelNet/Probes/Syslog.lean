import SentinelNet.Lib.Executions

/-!
# The syslog messages of a site

The collector of an agent puts the datagrams into a queue, and two threads take them out again and
post them to the central: the flusher, every two seconds, and the cycle of the agent.  A thread
tests the queue, takes a message, and posts what it took when the queue is empty or the limit is
reached; all these are steps of their own.

* `Forwarder`, `arrive`, `move`: the queue and the threads.
* `exactlyOnce_iff`: when every message is posted exactly once.
-/

namespace SentinelNet.Probes

open Executions

/-! ## The machine -/

/-- An entry of the queue. -/
structure SyslogItem where
  ts : ℤ
  srcIp : String
  raw : String
  deriving DecidableEq

/-- A message with its number in the order of arrival. -/
abbrev Numbered := ℕ × SyslogItem

/-- The threads that call `push_syslog`: `_syslog_flush_loop` and `cycle`. -/
inductive Drainer where
  | flusher | cycle
  deriving DecidableEq

/-- Where a thread is in `push_syslog`, with the list `items` of `drain`. -/
inductive Phase where
  | idle
  /-- Before the test of `while self.queue and len(items) < limit`. -/
  | testing (items : List Numbered)
  /-- Before `popleft`. -/
  | popping (items : List Numbered)
  /-- Before the request. -/
  | posting (items : List Numbered)

/-- The messages that a thread holds. -/
def Phase.items : Phase → List Numbered
  | .idle => []
  | .testing items => items
  | .popping items => items
  | .posting items => items

/-- The queue, the threads, and what the central took; what was received is kept to speak about
it. -/
structure Forwarder where
  received : List SyslogItem
  queue : List Numbered
  phase : Drainer → Phase
  posted : List Numbered

def Forwarder.start : Forwarder := ⟨[], [], fun _ => .idle, []⟩

/-- A thread goes on. -/
def Forwarder.enter (s : Forwarder) (d : Drainer) (phase : Phase) : Forwarder :=
  { s with phase := fun e => if e = d then phase else s.phase e }

/-- The queue without the message that was taken. -/
def Forwarder.setQueue (s : Forwarder) (queue : List Numbered) : Forwarder :=
  { s with queue := queue }

/-- The central takes some messages. -/
def Forwarder.post (s : Forwarder) (items : List Numbered) : Forwarder :=
  { s with posted := s.posted ++ items }

/-- `append` of a queue with a `maxlen`: a full queue loses its oldest message. -/
def Forwarder.arrive (maxlen : ℕ) (s : Forwarder) (item : SyslogItem) : Forwarder :=
  { s with
    received := s.received ++ [item]
    queue := (s.queue ++ [(s.received.length, item)]).drop (s.queue.length + 1 - maxlen) }

def drainLimit : ℕ := 500

/-- The next step of a thread; `ok` says whether a request succeeds. -/
def Forwarder.move (s : Forwarder) (d : Drainer) (ok : Bool) : Forwarder :=
  match s.phase d with
  | .idle => s.enter d (.testing [])
  | .testing items =>
    if s.queue ≠ [] ∧ items.length < drainLimit then s.enter d (.popping items)
    else if items = [] then s.enter d .idle
    else s.enter d (.posting items)
  | .popping items =>
    match s.queue with
    -- `IndexError` leaves `drain` and `push_syslog`
    | [] => s.enter d .idle
    | message :: queue => (s.enter d (.testing (items ++ [message]))).setQueue queue
  | .posting items => if ok then (s.enter d .idle).post items else s.enter d .idle

/-- A datagram comes, or a thread moves. -/
inductive SyslogAction where
  | arrive (item : SyslogItem)
  | move (d : Drainer) (ok : Bool)

def Forwarder.step (maxlen : ℕ) (s : Forwarder) : SyslogAction → Forwarder
  | .arrive item => s.arrive maxlen item
  | .move d ok => s.move d ok

/-! ## Executions -/

/-- A message comes while fewer than `maxlen` are waiting. -/
def HasRoom (maxlen : ℕ) (s : Forwarder) : SyslogAction → Prop
  | .arrive _ => s.queue.length < maxlen
  | .move _ _ => True

/-- The step of a thread. -/
def IsMove (d : Drainer) : SyslogAction → Prop
  | .arrive _ => False
  | .move e _ => e = d

/-- The request of a step succeeds, if it is one; and a thread that holds messages finds one where
it takes one. -/
def Careful (s : Forwarder) : SyslogAction → Prop
  | .arrive _ => True
  | .move d ok =>
    match s.phase d with
    | .popping items => s.queue ≠ [] ∨ items = []
    | .posting _ => ok = true
    | _ => True

/-- An execution that begins with the start of the agent, in which the queue never is full and both
threads keep moving. -/
structure Runs {maxlen : ℕ} (x : Execution (Forwarder.step maxlen)) : Prop where
  starts : x.state 0 = Forwarder.start
  room : ∀ n, HasRoom maxlen (x.state n) (x.act n)
  moving : ∀ d, x.Recurs (IsMove d)

/-- From some state on, every message that was received is posted once. -/
def ExactlyOnce {maxlen : ℕ} (x : Execution (Forwarder.step maxlen)) : Prop :=
  ∀ n i item, (x.state n).received[i]? = some item →
    ∃ m, ∀ k, m ≤ k → (x.state k).posted.count (i, item) = 1

/-! ## Copies of a message -/

section Copies

variable {maxlen : ℕ} {s : Forwarder} {d : Drainer} {ok : Bool} {p : Numbered}

@[simp] theorem enter_phase_self (s : Forwarder) (d : Drainer) (phase : Phase) :
    (s.enter d phase).phase d = phase := if_pos rfl

theorem enter_phase_of_ne (s : Forwarder) {d e : Drainer} (h : e ≠ d) (phase : Phase) :
    (s.enter d phase).phase e = s.phase e := if_neg h

@[simp] theorem enter_queue (s : Forwarder) (d : Drainer) (phase : Phase) :
    (s.enter d phase).queue = s.queue := rfl

/-- How often a message is anywhere. -/
def Forwarder.copies (s : Forwarder) (p : Numbered) : ℕ :=
  s.posted.count p + (s.phase .flusher).items.count p + (s.phase .cycle).items.count p +
    s.queue.count p

/-- How often a message gets lost where a thread moves. -/
def Forwarder.lost (s : Forwarder) (d : Drainer) (ok : Bool) (p : Numbered) : ℕ :=
  match s.phase d with
  | .popping items => if s.queue = [] then items.count p else 0
  | .posting items => if ok then 0 else items.count p
  | _ => 0

theorem copies_enter (s : Forwarder) (d : Drainer) (phase : Phase) (p : Numbered) :
    (s.enter d phase).copies p + (s.phase d).items.count p = s.copies p + phase.items.count p := by
  cases d with
  | flusher =>
    have hother := enter_phase_of_ne s (show Drainer.cycle ≠ .flusher by decide) phase
    rw [Forwarder.copies, hother, enter_phase_self, Forwarder.copies]
    show s.posted.count p + _ + _ + s.queue.count p + _ = _
    omega
  | cycle =>
    have hother := enter_phase_of_ne s (show Drainer.flusher ≠ .cycle by decide) phase
    rw [Forwarder.copies, hother, enter_phase_self, Forwarder.copies]
    show s.posted.count p + _ + _ + s.queue.count p + _ = _
    omega

theorem copies_setQueue (s : Forwarder) (queue : List Numbered) (p : Numbered) :
    (s.setQueue queue).copies p + s.queue.count p = s.copies p + queue.count p := by
  simp only [Forwarder.copies, Forwarder.setQueue]
  omega

theorem copies_post (s : Forwarder) (items : List Numbered) (p : Numbered) :
    (s.post items).copies p = s.copies p + items.count p := by
  simp only [Forwarder.copies, Forwarder.post, List.count_append]
  omega

theorem copies_move (s : Forwarder) (d : Drainer) (ok : Bool) (p : Numbered) :
    (s.move d ok).copies p + s.lost d ok p = s.copies p := by
  have henter := fun phase => copies_enter s d phase p
  cases hphase : s.phase d with
  | idle =>
    simp only [hphase] at henter
    simp only [Forwarder.move, Forwarder.lost, hphase]
    exact henter (.testing [])
  | testing items =>
    simp only [hphase] at henter
    simp only [Forwarder.move, Forwarder.lost, hphase, Nat.add_zero]
    split
    · exact Nat.add_right_cancel (henter (.popping items))
    · split
      · next hitems =>
        have hidle := henter .idle
        rw [hitems] at hidle
        exact hidle
      · exact Nat.add_right_cancel (henter (.posting items))
  | popping items =>
    simp only [hphase] at henter
    simp only [Forwarder.move, Forwarder.lost, hphase]
    cases hqueue : s.queue with
    | nil => exact henter .idle
    | cons message queue =>
      have htesting := henter (.testing (items ++ [message]))
      have hpopped := copies_setQueue (s.enter d (.testing (items ++ [message]))) queue p
      rw [enter_queue, hqueue, List.count_cons] at hpopped
      simp only [Phase.items, List.count_append, List.count_singleton] at htesting
      rw [if_neg (List.cons_ne_nil _ _), Nat.add_zero]
      dsimp only
      omega
  | posting items =>
    simp only [hphase] at henter
    have hidle := henter .idle
    simp only [Phase.items, List.count_nil, Nat.add_zero] at hidle
    simp only [Forwarder.move, Forwarder.lost, hphase]
    cases ok with
    | false => exact hidle
    | true =>
      rw [if_pos rfl, if_pos rfl, copies_post, Nat.add_zero]
      exact hidle

variable {item : SyslogItem}

theorem arrive_eq (h : s.queue.length < maxlen) :
    s.arrive maxlen item =
      { s with
        received := s.received ++ [item]
        queue := s.queue ++ [(s.received.length, item)] } := by
  rw [Forwarder.arrive, Nat.sub_eq_zero_of_le h, List.drop_zero]

theorem copies_arrive (h : s.queue.length < maxlen) (p : Numbered) :
    (s.arrive maxlen item).copies p =
      s.copies p + if p = (s.received.length, item) then 1 else 0 := by
  rw [arrive_eq h]
  simp only [Forwarder.copies, List.count_append, List.count_singleton, beq_iff_eq,
    eq_comm (a := (s.received.length, item))]
  omega

theorem received_move (s : Forwarder) (d : Drainer) (ok : Bool) :
    (s.move d ok).received = s.received := by
  unfold Forwarder.move
  split
  · rfl
  · split
    · rfl
    · split <;> rfl
  · split <;> rfl
  · split <;> rfl

/-- Where a thread goes on. -/
def Phase.next (queue : List Numbered) : Phase → Phase
  | .idle => .testing []
  | .testing items =>
    if queue ≠ [] ∧ items.length < drainLimit then .popping items
    else if items = [] then .idle else .posting items
  | .popping items =>
    match queue with
    | [] => .idle
    | message :: _ => .testing (items ++ [message])
  | .posting _ => .idle

theorem phase_move (s : Forwarder) (d : Drainer) (ok : Bool) :
    (s.move d ok).phase d = (s.phase d).next s.queue := by
  unfold Forwarder.move
  split
  · next hphase =>
    rw [hphase]
    exact enter_phase_self ..
  · next items hphase =>
    rw [hphase, Phase.next]
    split
    · exact enter_phase_self ..
    · split
      · exact enter_phase_self ..
      · exact enter_phase_self ..
  · next items hphase =>
    split
    · next hqueue =>
      rw [hphase, hqueue]
      exact enter_phase_self ..
    · next message queue hqueue =>
      rw [hphase, hqueue]
      exact enter_phase_self ..
  · next items hphase =>
    rw [hphase]
    split
    · exact enter_phase_self ..
    · exact enter_phase_self ..

theorem ne_nil_of_next {queue items : List Numbered} {phase : Phase}
    (h : phase.next queue = .posting items) : items ≠ [] := by
  unfold Phase.next at h
  split at h
  · cases h
  · split at h
    · cases h
    · split at h
      · cases h
      · next hne =>
        obtain rfl := Phase.posting.inj h
        exact hne
  · split at h <;> exact nomatch h
  · cases h

theorem length_lt_of_next {queue items : List Numbered} {phase : Phase}
    (h : phase.next queue = .popping items) : items.length < drainLimit := by
  unfold Phase.next at h
  split at h
  · cases h
  · split at h
    · next hlimit =>
      obtain rfl := Phase.popping.inj h
      exact hlimit.2
    · split at h <;> exact nomatch h
  · split at h <;> exact nomatch h
  · cases h

theorem phase_move_of_ne (s : Forwarder) {d e : Drainer} (h : e ≠ d) (ok : Bool) :
    (s.move d ok).phase e = s.phase e := by
  have henter := fun phase => enter_phase_of_ne s h phase
  unfold Forwarder.move
  split
  · exact henter _
  · split
    · exact henter _
    · split
      · exact henter _
      · exact henter _
  · split
    · exact henter _
    · exact henter _
  · split
    · exact henter _
    · exact henter _

theorem queue_move (s : Forwarder) (d : Drainer) (ok : Bool) :
    (s.move d ok).queue = s.queue ∨
      ∃ message items, s.queue = message :: (s.move d ok).queue ∧ s.phase d = .popping items := by
  cases hphase : s.phase d with
  | idle => simp only [Forwarder.move, hphase, enter_queue, true_or]
  | testing items =>
    simp only [Forwarder.move, hphase]
    split
    · exact .inl rfl
    · split
      · exact .inl rfl
      · exact .inl rfl
  | popping items =>
    cases hqueue : s.queue with
    | nil => simp only [Forwarder.move, hphase, hqueue, enter_queue, true_or]
    | cons message queue =>
      simp only [Forwarder.move, hphase, hqueue]
      exact .inr ⟨message, items, rfl, rfl⟩
  | posting items =>
    simp only [Forwarder.move, hphase]
    split
    · exact .inl rfl
    · exact .inl rfl

theorem posted_step (s : Forwarder) (a : SyslogAction) (p : Numbered) :
    s.posted.count p ≤ (s.step maxlen a).posted.count p := by
  cases a with
  | arrive item => exact le_rfl
  | move d ok =>
    show _ ≤ (s.move d ok).posted.count p
    unfold Forwarder.move
    split
    · exact le_rfl
    · split
      · exact le_rfl
      · split
        · exact le_rfl
        · exact le_rfl
    · split
      · exact le_rfl
      · exact le_rfl
    · split
      · rw [Forwarder.post, List.count_append]
        exact Nat.le_add_right _ _
      · exact le_rfl

/-! ## The invariant -/

/-- No message is there twice, every message was received, a thread that posts holds messages, and
one that takes a message has not reached the limit. -/
structure Sound (s : Forwarder) : Prop where
  once : ∀ p, s.copies p ≤ 1
  known : ∀ p, 0 < s.copies p → s.received[p.1]? = some p.2
  holding : ∀ d items, s.phase d = .posting items → items ≠ []
  below : ∀ d items, s.phase d = .popping items → items.length < drainLimit

theorem sound_start : Sound Forwarder.start where
  once _ := Nat.zero_le _
  known _ h := absurd h (Nat.lt_irrefl 0)
  holding _ _ h := nomatch h
  below _ _ h := nomatch h

theorem ne_next_of_received (h : s.received[p.1]? = some p.2) : p ≠ (s.received.length, item) := by
  rintro rfl
  rw [List.getElem?_eq_none le_rfl] at h
  cases h

theorem received_append {items : List SyslogItem} (h : s.received[p.1]? = some p.2) :
    (s.received ++ items)[p.1]? = some p.2 := by
  rw [List.getElem?_append_left (List.getElem?_eq_some_iff.mp h).1, h]

theorem Sound.arrive (h : Sound s) (hroom : s.queue.length < maxlen) :
    Sound (s.arrive maxlen item) where
  once p := by
    rw [copies_arrive hroom]
    split
    · next hp =>
      have hnone : s.copies p = 0 := by
        by_contra hpos
        exact ne_next_of_received (h.known p (Nat.pos_of_ne_zero hpos)) hp
      rw [hnone]
    · exact h.once p
  known p hpos := by
    rw [copies_arrive hroom] at hpos
    rw [arrive_eq hroom]
    by_cases hp : p = (s.received.length, item)
    · subst hp
      exact List.getElem?_concat_length
    · rw [if_neg hp] at hpos
      exact received_append (h.known p hpos)
  holding := h.holding
  below := h.below

theorem Sound.move (h : Sound s) (d : Drainer) (ok : Bool) : Sound (s.move d ok) := by
  have hcopies := fun p => copies_move s d ok p
  refine ⟨fun p => ?_, fun p hpos => ?_, fun e items he => ?_, fun e items he => ?_⟩
  · have hp := h.once p
    have hle := hcopies p
    omega
  · rw [received_move]
    have hle := hcopies p
    exact h.known p (by omega)
  · by_cases hed : e = d
    · rw [hed, phase_move] at he
      exact ne_nil_of_next he
    · rw [phase_move_of_ne s hed] at he
      exact h.holding e items he
  · by_cases hed : e = d
    · rw [hed, phase_move] at he
      exact length_lt_of_next he
    · rw [phase_move_of_ne s hed] at he
      exact h.below e items he

/-- Every message that was received is somewhere. -/
def Kept (s : Forwarder) : Prop := ∀ p : Numbered, s.received[p.1]? = some p.2 → s.copies p = 1

theorem lost_of_careful (h : Careful s (.move d ok)) : s.lost d ok p = 0 := by
  simp only [Careful] at h
  unfold Forwarder.lost
  cases hphase : s.phase d with
  | idle => rfl
  | testing items => rfl
  | popping items =>
    rw [hphase] at h
    rcases h with hqueue | rfl
    · exact if_neg hqueue
    · exact ite_self 0
  | posting items =>
    rw [hphase] at h
    exact if_pos h

variable {a : SyslogAction}

theorem exists_lost (hs : Sound s) (h : ¬Careful s a) :
    ∃ p : Numbered, s.received[p.1]? = some p.2 ∧ (s.step maxlen a).received = s.received ∧
      (s.step maxlen a).copies p = 0 := by
  cases a with
  | arrive item => exact absurd trivial h
  | move d ok =>
    obtain ⟨p, hlost⟩ : ∃ p, 0 < s.lost d ok p := by
      simp only [Careful] at h
      unfold Forwarder.lost
      cases hphase : s.phase d with
      | idle =>
        rw [hphase] at h
        exact absurd trivial h
      | testing items =>
        rw [hphase] at h
        exact absurd trivial h
      | popping items =>
        rw [hphase] at h
        obtain ⟨hqueue, hitems⟩ := not_or.mp h
        obtain ⟨p, hp⟩ := List.exists_mem_of_ne_nil items hitems
        refine ⟨p, ?_⟩
        dsimp only
        rw [if_pos (not_not.mp hqueue)]
        exact List.count_pos_iff.mpr hp
      | posting items =>
        rw [hphase] at h
        obtain ⟨p, hp⟩ := List.exists_mem_of_ne_nil items (hs.holding d items hphase)
        refine ⟨p, ?_⟩
        dsimp only at h ⊢
        rw [if_neg h]
        exact List.count_pos_iff.mpr hp
    have hcopies := copies_move s d ok p
    have honce := hs.once p
    refine ⟨p, hs.known p (by omega), received_move s d ok, ?_⟩
    show (s.move d ok).copies p = 0
    omega

theorem copies_step_of_lost (hroom : HasRoom maxlen s a)
    (h : s.received[p.1]? = some p.2 ∧ s.copies p = 0) :
    (s.step maxlen a).received[p.1]? = some p.2 ∧ (s.step maxlen a).copies p = 0 := by
  cases a with
  | arrive item =>
    refine ⟨received_append h.1, ?_⟩
    rw [Forwarder.step, copies_arrive hroom, h.2, if_neg (ne_next_of_received h.1)]
  | move d ok =>
    have hcopies := copies_move s d ok p
    refine ⟨by rw [Forwarder.step, received_move]; exact h.1, ?_⟩
    rw [Forwarder.step]
    omega

theorem Kept.step (h : Kept s) (hs : Sound s) (hroom : HasRoom maxlen s a)
    (hcareful : Careful s a) : Kept (s.step maxlen a) := by
  intro p hp
  cases a with
  | arrive item =>
    rw [Forwarder.step, copies_arrive hroom]
    by_cases hnew : p = (s.received.length, item)
    · rw [if_pos hnew]
      have hnone : s.copies p = 0 := by
        by_contra hpos
        exact ne_next_of_received (hs.known p (Nat.pos_of_ne_zero hpos)) hnew
      rw [hnone]
    · rw [if_neg hnew]
      refine h p ?_
      rw [Forwarder.step, arrive_eq hroom] at hp
      rcases Nat.lt_or_ge p.1 s.received.length with hlt | hge
      · rwa [List.getElem?_append_left hlt] at hp
      · -- the entry behind the others is the new message
        rw [List.getElem?_append_right hge] at hp
        have hzero : p.1 - s.received.length = 0 := by
          have hlt := (List.getElem?_eq_some_iff.mp hp).1
          rw [List.length_singleton] at hlt
          omega
        rw [hzero] at hp
        exact absurd (Prod.ext (by dsimp only; omega) (Option.some.inj hp).symm) hnew
  | move d ok =>
    have hcopies := copies_move s d ok p
    rw [lost_of_careful hcareful, Nat.add_zero] at hcopies
    rw [Forwarder.step, received_move] at hp
    rw [Forwarder.step, hcopies]
    exact h p hp

end Copies

/-! ## Progress -/

section Progress

variable {maxlen : ℕ} {s : Forwarder} {p : Numbered}

/-- How far a thread is from taking a message off a queue that is not empty. -/
def Phase.toPop : Phase → ℕ
  | .idle => 2
  | .testing items => if items.length < drainLimit then 1 else 4
  | .popping _ => 0
  | .posting _ => 3

/-- How far a thread that holds messages is from its request. -/
def Phase.toPost : Phase → ℕ
  | .idle => 0
  | .testing items => 2 * (drainLimit - items.length) + 1
  | .popping items => 2 * (drainLimit - items.length)
  | .posting _ => 0

/-- How far a message in the queue is from being taken. -/
def Forwarder.ahead (s : Forwarder) (p : Numbered) : ℕ :=
  5 * s.queue.idxOf p + (s.phase .flusher).toPop

theorem toPop_le (phase : Phase) : phase.toPop ≤ 4 := by
  unfold Phase.toPop
  split
  · omega
  · split <;> omega
  · omega
  · omega

theorem toPop_next {queue : List Numbered} (hqueue : queue ≠ []) {phase : Phase}
    (h : ∀ items, phase ≠ .popping items)
    (hholding : ∀ items, phase = .posting items → items ≠ []) :
    (phase.next queue).toPop < phase.toPop := by
  cases phase with
  | idle => exact (by decide : (1 : ℕ) < 2)
  | testing items =>
    rw [Phase.next]
    by_cases hlimit : items.length < drainLimit
    · rw [if_pos ⟨hqueue, hlimit⟩, Phase.toPop, Phase.toPop, if_pos hlimit]
      exact Nat.one_pos
    · have hitems : items ≠ [] := by
        rintro rfl
        exact hlimit (by decide)
      rw [if_neg fun hboth => hlimit hboth.2, if_neg hitems, Phase.toPop, Phase.toPop,
        if_neg hlimit]
      decide
  | popping items => exact absurd rfl (h items)
  | posting items => exact (by decide : (2 : ℕ) < 3)

theorem idxOf_of_taken (hs : Sound s) {message : Numbered} {queue : List Numbered}
    (hqueue : s.queue = message :: queue) (hp : p ∈ queue) :
    s.queue.idxOf p = queue.idxOf p + 1 := by
  have hne : message ≠ p := by
    rintro rfl
    have honce := hs.once message
    have hcount : 0 < queue.count message := List.count_pos_iff.mpr hp
    rw [Forwarder.copies, hqueue, List.count_cons_self] at honce
    omega
  rw [hqueue, List.idxOf_cons_ne _ hne]

theorem ahead_move_cycle (hs : Sound s) {ok : Bool} (hp : p ∈ (s.move .cycle ok).queue) :
    (s.move .cycle ok).ahead p ≤ s.ahead p := by
  rw [Forwarder.ahead, Forwarder.ahead, phase_move_of_ne s (by decide)]
  rcases queue_move s .cycle ok with hqueue | ⟨message, items, hqueue, -⟩
  · rw [hqueue]
  · have hidx := idxOf_of_taken hs hqueue hp
    omega

theorem ahead_move_flusher (hs : Sound s) {ok : Bool} (hp : p ∈ (s.move .flusher ok).queue) :
    (s.move .flusher ok).ahead p < s.ahead p := by
  rw [Forwarder.ahead, Forwarder.ahead]
  have hle := toPop_le ((s.move .flusher ok).phase .flusher)
  rcases queue_move s .flusher ok with hqueue | ⟨message, items, hqueue, -⟩
  · rw [hqueue] at hp ⊢
    have hne : s.queue ≠ [] := List.ne_nil_of_mem hp
    have hpop : ∀ items, s.phase .flusher ≠ .popping items := by
      intro items hphase
      obtain ⟨message, queue, hcons⟩ := List.exists_cons_of_ne_nil hne
      have htaken : (s.move .flusher ok).queue = queue := by
        simp only [Forwarder.move, hphase, hcons]
        rfl
      rw [htaken, hcons] at hqueue
      exact absurd hqueue.symm (List.cons_ne_self message queue)
    rw [phase_move]
    exact Nat.add_lt_add_left (toPop_next hne hpop (hs.holding .flusher)) _
  · have hidx := idxOf_of_taken hs hqueue hp
    omega

theorem nears_taken {x : Execution (Forwarder.step maxlen)} {n : ℕ} (hs : Sound (x.state n))
    (hroom : HasRoom maxlen (x.state n) (x.act n)) :
    x.Nears (fun s => p ∈ s.queue) (fun s => p ∉ s.queue) (IsMove .flusher)
      (fun s => s.ahead p) n := by
  refine ⟨fun _ hQ => not_not.mp hQ, fun hP hQ => ?_, fun _ hQ hmoves => ?_⟩
  · have hQ := not_not.mp hQ
    cases hact : x.act n with
    | arrive item =>
      rw [hact] at hroom
      show ((x.state n).arrive maxlen item).ahead p ≤ _
      rw [arrive_eq hroom, Forwarder.ahead, Forwarder.ahead, List.idxOf_append_of_mem hP]
    | move d ok =>
      rw [hact] at hQ
      cases d with
      | flusher => exact (ahead_move_flusher hs hQ).le
      | cycle => exact ahead_move_cycle hs hQ
  · have hQ := not_not.mp hQ
    cases hact : x.act n with
    | arrive item =>
      rw [hact] at hmoves
      exact absurd hmoves id
    | move d ok =>
      rw [hact] at hQ hmoves
      obtain rfl : d = .flusher := hmoves
      exact ahead_move_flusher hs hQ

theorem toPost_next (hs : Sound s) {d : Drainer} {ok : Bool} (hcareful : Careful s (.move d ok))
    (hp : p ∈ (s.phase d).items) (hnot : p ∉ (s.move d ok).posted) :
    p ∈ ((s.move d ok).phase d).items ∧ ((s.move d ok).phase d).toPost < (s.phase d).toPost := by
  rw [phase_move]
  simp only [Careful] at hcareful
  cases hphase : s.phase d with
  | idle =>
    rw [hphase] at hp
    cases hp
  | testing items =>
    rw [hphase] at hp
    have hitems : items ≠ [] := List.ne_nil_of_mem hp
    rw [Phase.next, if_neg hitems]
    split
    · exact ⟨hp, Nat.lt_succ_self _⟩
    · exact ⟨hp, Nat.succ_pos _⟩
  | popping items =>
    rw [hphase] at hp hcareful
    have hbelow := hs.below d items hphase
    obtain ⟨message, queue, hqueue⟩ :=
      List.exists_cons_of_ne_nil (hcareful.resolve_right (List.ne_nil_of_mem hp))
    rw [hqueue]
    refine ⟨List.mem_append_left _ hp, ?_⟩
    show 2 * (drainLimit - (items ++ [message]).length) + 1 < 2 * (drainLimit - items.length)
    rw [List.length_append, List.length_singleton]
    omega
  | posting items =>
    rw [hphase] at hp hcareful
    refine absurd ?_ hnot
    obtain rfl : ok = true := hcareful
    simp only [Forwarder.move, hphase, if_pos]
    exact List.mem_append_right _ hp

theorem nears_posted {x : Execution (Forwarder.step maxlen)} {n : ℕ} (d : Drainer)
    (hs : Sound (x.state n)) (hcareful : Careful (x.state n) (x.act n)) :
    x.Nears (fun s => p ∈ (s.phase d).items) (fun s => p ∈ s.posted) (IsMove d)
      (fun s => (s.phase d).toPost) n := by
  -- only a step of the thread changes its phase
  have hother : ¬IsMove d (x.act n) →
      (Forwarder.step maxlen (x.state n) (x.act n)).phase d = (x.state n).phase d := by
    intro hnot
    cases hact : x.act n with
    | arrive item => rfl
    | move e ok =>
      rw [hact] at hnot
      exact phase_move_of_ne _ (Ne.symm hnot) ok
  have hmove : IsMove d (x.act n) → p ∈ ((x.state n).phase d).items →
      p ∉ (Forwarder.step maxlen (x.state n) (x.act n)).posted →
        p ∈ ((Forwarder.step maxlen (x.state n) (x.act n)).phase d).items ∧
          ((Forwarder.step maxlen (x.state n) (x.act n)).phase d).toPost <
            ((x.state n).phase d).toPost := by
    intro hmoves hP hQ
    cases hact : x.act n with
    | arrive item =>
      rw [hact] at hmoves
      exact absurd hmoves id
    | move e ok =>
      rw [hact] at hmoves hQ hcareful
      obtain rfl : e = d := hmoves
      exact toPost_next hs hcareful hP hQ
  refine ⟨fun hP hQ => ?_, fun hP hQ => ?_, fun hP hQ hmoves => (hmove hmoves hP hQ).2⟩
  · by_cases hmoves : IsMove d (x.act n)
    · exact (hmove hmoves hP hQ).1
    · rw [hother hmoves]
      exact hP
  · by_cases hmoves : IsMove d (x.act n)
    · exact (hmove hmoves hP hQ).2.le
    · rw [hother hmoves]

end Progress

/-! ## Main result -/

section Main

variable {maxlen : ℕ} {x : Execution (Forwarder.step maxlen)}

theorem Runs.sound (h : Runs x) (n : ℕ) : Sound (x.state n) := by
  refine x.invariant (I := Sound) (n := 0) (fun k _ hs => ?_) ?_ (Nat.zero_le n)
  · have hroom := h.room k
    cases hact : x.act k with
    | arrive item =>
      rw [hact] at hroom
      exact hs.arrive hroom
    | move d ok => exact hs.move d ok
  · rw [h.starts]
    exact sound_start

theorem Runs.kept (h : Runs x) (hcareful : ∀ n, Careful (x.state n) (x.act n)) (n : ℕ) :
    Kept (x.state n) := by
  refine x.invariant (I := Kept) (n := 0)
    (fun k _ hk => hk.step (h.sound k) (h.room k) (hcareful k)) ?_ (Nat.zero_le n)
  rw [h.starts]
  exact fun p hp => nomatch hp

theorem posted_mono {n m : ℕ} (hm : n ≤ m) (p : Numbered) :
    (x.state n).posted.count p ≤ (x.state m).posted.count p :=
  x.invariant (I := fun s => (x.state n).posted.count p ≤ s.posted.count p)
    (fun _ _ hk => hk.trans (posted_step _ _ p)) le_rfl hm

theorem Runs.eventually_posted (h : Runs x) (hcareful : ∀ n, Careful (x.state n) (x.act n)) {n : ℕ}
    {p : Numbered} (hp : (x.state n).received[p.1]? = some p.2) :
    ∃ m, n ≤ m ∧ p ∈ (x.state m).posted := by
  have hreceived : ∀ m, n ≤ m → (x.state m).received[p.1]? = some p.2 := by
    intro m hm
    refine x.invariant (I := fun s => s.received[p.1]? = some p.2) (fun k _ hk => ?_) hp hm
    cases hact : x.act k with
    | arrive item => exact received_append hk
    | move d ok => exact (congrArg (·[p.1]?) (received_move _ d ok)).trans hk
  -- it leaves the queue
  obtain ⟨m, hm, hout⟩ : ∃ m, n ≤ m ∧ p ∉ (x.state m).queue := by
    by_cases hin : p ∈ (x.state n).queue
    · exact x.leadsTo (h.moving .flusher) (fun k => nears_taken (h.sound k) (h.room k)) hin
    · exact ⟨n, le_rfl, hin⟩
  have hcopies := h.kept hcareful m p (hreceived m hm)
  rw [Forwarder.copies, List.count_eq_zero.mpr hout] at hcopies
  -- and a thread that holds it posts it
  have hthread : ∀ d, p ∈ ((x.state m).phase d).items → ∃ k, n ≤ k ∧ p ∈ (x.state k).posted := by
    intro d hheld
    obtain ⟨k, hk, hposted⟩ :=
      x.leadsTo (h.moving d) (fun k => nears_posted d (h.sound k) (hcareful k)) hheld
    exact ⟨k, hm.trans hk, hposted⟩
  by_cases hposted : p ∈ (x.state m).posted
  · exact ⟨m, hm, hposted⟩
  · by_cases hflusher : p ∈ ((x.state m).phase .flusher).items
    · exact hthread .flusher hflusher
    · refine hthread .cycle (List.count_pos_iff.mp ?_)
      rw [List.count_eq_zero.mpr hposted, List.count_eq_zero.mpr hflusher] at hcopies
      omega

theorem Runs.lost_forever (h : Runs x) {n : ℕ} (hnot : ¬Careful (x.state n) (x.act n)) :
    ∃ p : Numbered, (x.state n).received[p.1]? = some p.2 ∧
      ∀ k, n + 1 ≤ k → (x.state k).posted.count p = 0 := by
  obtain ⟨p, hp, hsame, hlost⟩ : ∃ p : Numbered, (x.state n).received[p.1]? = some p.2 ∧
      ((x.state n).step maxlen (x.act n)).received = (x.state n).received ∧
        ((x.state n).step maxlen (x.act n)).copies p = 0 := exists_lost (h.sound n) hnot
  refine ⟨p, hp, fun k hk => ?_⟩
  have hgone := x.invariant
    (I := fun s => s.received[p.1]? = some p.2 ∧ s.copies p = 0)
    (fun m _ hm => copies_step_of_lost (h.room m) hm)
    (by rw [x.next, hsame]; exact ⟨hp, hlost⟩) hk
  have hzero := hgone.2
  rw [Forwarder.copies] at hzero
  omega

/-- Every message is posted exactly once if and only if no request fails and no thread that holds
messages finds the queue empty where it takes one. -/
theorem exactlyOnce_iff (h : Runs x) : ExactlyOnce x ↔ ∀ n, Careful (x.state n) (x.act n) := by
  constructor
  · intro honce n
    by_contra hnot
    obtain ⟨p, hp, hlost⟩ := h.lost_forever hnot
    obtain ⟨m, hm⟩ := honce n p.1 p.2 hp
    have hzero := hlost (max m (n + 1)) (le_max_right ..)
    have hposted := hm (max m (n + 1)) (le_max_left ..)
    rw [hzero] at hposted
    exact nomatch hposted
  · intro hcareful n i item hp
    obtain ⟨m, -, hposted⟩ := h.eventually_posted hcareful (p := (i, item)) hp
    refine ⟨m, fun k hk => le_antisymm ?_ ?_⟩
    · have honce := (h.sound k).once (i, item)
      rw [Forwarder.copies] at honce
      omega
    · exact (List.count_pos_iff.mpr hposted).trans_le (posted_mono hk _)

end Main

/-! ## A request that fails -/

/-- A message comes, the flusher takes it and posts it, with a request that succeeds or fails; from
then on the threads take turns, and all requests succeed. -/
def oneMessage (ok : Bool) : ℕ → SyslogAction
  | 0 => .arrive ⟨0, "10.0.0.1", "link down"⟩
  | n + 1 =>
    .move (if n < 5 ∨ n % 2 = 0 then .flusher else .cycle) (if n = 4 then ok else true)

def oneMessageExecution (ok : Bool) : Execution (Forwarder.step 2000) :=
  Execution.ofActs Forwarder.start (oneMessage ok)

theorem runs_oneMessage (ok : Bool) : Runs (oneMessageExecution ok) where
  starts := rfl
  room n := by
    cases n with
    | zero => exact (by decide : 0 < 2000)
    | succ n => exact trivial
  moving d n := by
    cases d with
    | flusher =>
      refine ⟨2 * n + 6 + 1, by omega, ?_⟩
      exact if_pos (.inr (by omega))
    | cycle =>
      refine ⟨2 * n + 7 + 1, by omega, ?_⟩
      exact if_neg (by omega)

/-- Nothing is waiting, and the threads find nothing. -/
def AllQuiet (s : Forwarder) : Prop :=
  s.queue = [] ∧ ∀ d, s.phase d = .idle ∨ s.phase d = .testing []

theorem AllQuiet.move {s : Forwarder} (h : AllQuiet s) (d : Drainer) (ok : Bool) :
    AllQuiet (s.move d ok) := by
  constructor
  · rcases queue_move s d ok with hqueue | ⟨message, items, hqueue, -⟩
    · rw [hqueue, h.1]
    · rw [h.1] at hqueue
      cases hqueue
  · intro e
    by_cases hed : e = d
    · rw [hed, phase_move, h.1]
      rcases h.2 d with hphase | hphase
      · rw [hphase]
        exact .inr rfl
      · rw [hphase]
        exact .inl rfl
    · rw [phase_move_of_ne s hed]
      exact h.2 e

theorem AllQuiet.careful {s : Forwarder} (h : AllQuiet s) (d : Drainer) (ok : Bool) :
    Careful s (.move d ok) := by
  rw [Careful]
  rcases h.2 d with hphase | hphase
  · rw [hphase]
    exact trivial
  · rw [hphase]
    exact trivial

theorem allQuiet_oneMessage {n : ℕ} (hn : 6 ≤ n) :
    AllQuiet ((oneMessageExecution true).state n) := by
  refine (oneMessageExecution true).invariant (n := 6) (fun k hk hquiet => ?_)
    ⟨rfl, fun d => ?_⟩ hn
  · obtain ⟨m, rfl⟩ := Nat.exists_eq_add_of_le' (Nat.one_le_of_lt hk)
    exact hquiet.move _ _
  · cases d with
    | flusher => exact .inl rfl
    | cycle => exact .inl rfl

/-- Where the request succeeds, the message is posted exactly once. -/
theorem exactlyOnce_iff_oneMessage : ExactlyOnce (oneMessageExecution true) := by
  refine (exactlyOnce_iff (runs_oneMessage true)).mpr fun n => ?_
  match n with
  | 0 => exact trivial
  | 1 => exact trivial
  | 2 => exact trivial
  | 3 => exact .inr rfl
  | 4 => exact trivial
  | 5 => exact rfl
  | n + 6 => exact (allQuiet_oneMessage (Nat.le_add_left 6 n)).careful _ _

/-- A message whose request fails is lost, although all requests after it succeed. -/
theorem failed_request_loses : ¬ ∀ (maxlen : ℕ) (x : Execution (Forwarder.step maxlen)), Runs x →
    (∃ n, ∀ m, n ≤ m → ∀ d, x.act m ≠ .move d false) → ExactlyOnce x := by
  intro hclaim
  have honce := hclaim 2000 (oneMessageExecution false) (runs_oneMessage false) ⟨6, fun m hm d => by
    cases m with
    | zero => exact nomatch hm
    | succ m =>
      intro hact
      have hok := (SyslogAction.move.inj hact).2
      rw [if_neg (by omega)] at hok
      exact nomatch hok⟩
  have hnot : ¬Careful ((oneMessageExecution false).state 5) ((oneMessageExecution false).act 5) :=
    fun h => Bool.false_ne_true h
  obtain ⟨p, hp, hlost⟩ := (runs_oneMessage false).lost_forever hnot
  obtain ⟨m, hm⟩ := honce 5 p.1 p.2 hp
  have hposted := hm (max m 6) (le_max_left ..)
  rw [hlost (max m 6) (le_max_right ..)] at hposted
  exact nomatch hposted

end SentinelNet.Probes
