import SentinelNet.Lib.Runs

/-!
# Programs that share a store

A program reads a store and writes it, and every read and every write is a step of its own, so that
the steps of other programs may come in between.  A relation `r` says what a program relies on: a
write that does not respect it disturbs the programs that have begun.

* `System.step`: a program begins, or takes its next step.
* `System.invariant`: an invariant that the programs keep holds in every state of a calm run.
-/

namespace Interleaving

open StepRuns

/-- A program.  What it does next depends on the store that it finds. -/
inductive Prog (σ : Type*) where
  | done
  | read (next : σ → Prog σ)
  | write (f : σ → σ) (next : σ → Prog σ)

/-- A program that has begun, and whether it was disturbed since. -/
structure Thread (σ : Type*) where
  prog : Prog σ
  disturbed : Bool

/-- A store and the programs that have begun. -/
structure System (σ : Type*) where
  store : σ
  threads : List (Thread σ)

/-- A program begins, or one that has begun takes its next step. -/
inductive Act (σ : Type*) where
  | spawn (p : Prog σ)
  | turn (i : ℕ)

variable {σ : Type*}

/-- A program that runs alone. -/
def Prog.run : Prog σ → σ → σ
  | .done, s => s
  | .read next, s => (next s).run s
  | .write f next, s => (next s).run (f s)

@[simp] theorem Prog.run_done (s : σ) : (Prog.done : Prog σ).run s = s := rfl

@[simp] theorem Prog.run_read (next : σ → Prog σ) (s : σ) :
    (Prog.read next).run s = (next s).run s := rfl

@[simp] theorem Prog.run_write (f : σ → σ) (next : σ → Prog σ) (s : σ) :
    (Prog.write f next).run s = (next s).run (f s) := rfl

/-- A write at the end of a program. -/
def Prog.last (f : σ → σ) : Prog σ := .write f fun _ => .done

@[simp] theorem Prog.run_last (f : σ → σ) (s : σ) : (Prog.last f).run s = f s := rfl

/-- What a write of the store does to a program that has begun. -/
def Thread.bear (r : σ → σ → Bool) (s s' : σ) (t : Thread σ) : Thread σ :=
  { t with disturbed := t.disturbed || !r s s' }

def System.step (r : σ → σ → Bool) (S : System σ) : Act σ → System σ
  | .spawn p => { S with threads := S.threads ++ [⟨p, false⟩] }
  | .turn i =>
    match S.threads[i]? with
    | none => S
    | some t =>
      match t.prog with
      | .done => S
      | .read next => { S with threads := S.threads.set i { t with prog := next S.store } }
      | .write f next =>
        { store := f S.store
          threads := (S.threads.map (Thread.bear r S.store (f S.store))).set i
            { t with prog := next S.store } }

/-! ## Reliance -/

/-- An invariant holds after every write of a program; `known` is what the program knows of the
store, from what it read and wrote before. -/
def Prog.Keeps (R : σ → σ → Prop) (I : σ → Prop) : Prog σ → (σ → Prop) → Prop
  | .done, _ => True
  | .read next, known => ∀ s, I s → known s → (next s).Keeps R I fun s' => known s' ∧ R s s'
  | .write f next, known =>
    ∀ s, I s → known s → I (f s) ∧ (next s).Keeps R I fun s' => R (f s) s'

theorem Prog.Keeps.mono {R : σ → σ → Prop} {I known known' : σ → Prop} {p : Prog σ}
    (h : p.Keeps R I known) (hknown : ∀ s, known' s → known s) : p.Keeps R I known' := by
  induction p generalizing known known' with
  | done => trivial
  | read next ih =>
    exact fun s hI hs => ih s (h s hI (hknown s hs)) fun s' hs' => ⟨hknown s' hs'.1, hs'.2⟩
  | write f next _ => exact fun s hI hs => h s hI (hknown s hs)

/-- A program that was disturbed takes a step that respects the relation. -/
def Thread.calm (r : σ → σ → Bool) (s : σ) (t : Thread σ) : Bool :=
  match t.prog with
  | .write f _ => !t.disturbed || r s (f s)
  | _ => true

/-- Programs that begin are among the given ones, and a program that was disturbed makes only writes
that respect the relation. -/
def System.Calm (r : σ → σ → Bool) (programs : Prog σ → Prop) (S : System σ) : Act σ → Prop
  | .spawn p => programs p
  | .turn i => S.threads[i]?.all (Thread.calm r S.store) = true

def System.calmTurns (r : σ → σ → Bool) (S : System σ) : List ℕ → Bool
  | [] => true
  | i :: turns =>
    S.threads[i]?.all (Thread.calm r S.store) && (S.step r (.turn i)).calmTurns r turns

/-- Programs begin, and then take turns. -/
def plan (programs : List (Prog σ)) (turns : List ℕ) : List (Act σ) :=
  programs.map Act.spawn ++ turns.map Act.turn

theorem System.run_of_calmTurns {r : σ → σ → Bool} {programs : Prog σ → Prop} {S : System σ}
    {ps : List (Prog σ)} {turns : List ℕ} (hps : ∀ p ∈ ps, programs p)
    (h : ((ps.map Act.spawn).foldl (System.step r) S).calmTurns r turns) :
    Run (System.step r) (System.Calm r programs) S (plan ps turns)
      ((plan ps turns).foldl (System.step r) S) := by
  induction ps generalizing S with
  | cons p ps ih =>
    exact Run.cons (hps p List.mem_cons_self)
      (ih (fun q hq => hps q (List.mem_cons_of_mem p hq)) h)
  | nil =>
    rw [List.map_nil, List.foldl_nil] at h
    induction turns generalizing S with
    | nil => exact Run.nil S
    | cons i turns ih =>
      obtain ⟨hfirst, hrest⟩ := Bool.and_eq_true_iff.mp h
      exact Run.cons hfirst (ih hrest)

/-- A program that has begun and is not disturbed keeps the invariant with what it knows. -/
structure Thread.Informed (r : σ → σ → Bool) (I : σ → Prop) (s : σ) (t : Thread σ) : Prop where
  keeps : t.disturbed = false → ∃ known : σ → Prop, known s ∧
    (∀ s s', known s → r s s' = true → known s') ∧ t.prog.Keeps (fun s s' => r s s' = true) I known

/-- An invariant, and every program that has begun keeps it. -/
structure System.Secure (r : σ → σ → Bool) (I : σ → Prop) (S : System σ) : Prop where
  holds : I S.store
  informed : ∀ t ∈ S.threads, t.Informed r I S.store

section Reliance

variable {r : σ → σ → Bool} {I : σ → Prop} {programs : Prog σ → Prop} {S S' : System σ}

theorem Thread.Informed.bear {s : σ} {t : Thread σ} (ht : t.Informed r I s) (s' : σ) :
    (t.bear r s s').Informed r I s' where
  keeps hcalm := by
    obtain ⟨hcalm, hr⟩ := Bool.or_eq_false_iff.mp hcalm
    obtain ⟨known, hs, hstable, hkeeps⟩ := ht.keeps hcalm
    exact ⟨known, hstable s s' hs (by simpa using hr), hstable, hkeeps⟩

variable (htrans : ∀ s s' s'', r s s' = true → r s' s'' = true → r s s'' = true)

include htrans

theorem Thread.Informed.read (hrefl : ∀ s, r s s = true) {s : σ} {t : Thread σ} {next : σ → Prog σ}
    (ht : t.Informed r I s) (hprog : t.prog = .read next) (hI : I s) :
    Thread.Informed r I s { t with prog := next s } where
  keeps hcalm := by
    obtain ⟨known, hs, hstable, hkeeps⟩ := ht.keeps hcalm
    rw [hprog] at hkeeps
    refine ⟨fun s' => known s' ∧ r s s' = true, ⟨hs, hrefl s⟩, ?_, hkeeps s hI hs⟩
    exact fun s₁ s₂ h₁ hr => ⟨hstable s₁ s₂ h₁.1 hr, htrans s s₁ s₂ h₁.2 hr⟩

theorem Thread.Informed.write (hrefl : ∀ s, r s s = true) {s : σ} {t : Thread σ} {f : σ → σ}
    {next : σ → Prog σ} (ht : t.Informed r I s) (hprog : t.prog = .write f next) (hI : I s) :
    Thread.Informed r I (f s) { t with prog := next s } where
  keeps hcalm := by
    obtain ⟨known, hs, -, hkeeps⟩ := ht.keeps hcalm
    rw [hprog] at hkeeps
    exact ⟨fun s' => r (f s) s' = true, hrefl (f s), fun s₁ s₂ => htrans (f s) s₁ s₂,
      (hkeeps s hI hs).2⟩

/-- Every step that is calm keeps the invariant. -/
theorem System.Secure.step (hrefl : ∀ s, r s s = true)
    (hI : ∀ s s', I s → r s s' = true → I s')
    (hprograms : ∀ p, programs p → p.Keeps (fun s s' => r s s' = true) I fun _ => True)
    (hS : S.Secure r I) {act : Act σ} (hact : S.Calm r programs act) :
    (S.step r act).Secure r I := by
  cases act with
  | spawn p =>
    refine ⟨hS.holds, fun t ht => ?_⟩
    rcases List.mem_append.mp ht with ht | ht
    · exact hS.informed t ht
    · obtain rfl := List.mem_singleton.mp ht
      exact ⟨fun _ => ⟨fun _ => True, trivial, fun _ _ _ _ => trivial, hprograms p hact⟩⟩
  | turn i =>
    rw [System.step]
    split
    · exact hS
    · next t ht =>
      have hmem : t ∈ S.threads := List.mem_of_getElem? ht
      split
      · exact hS
      · next next hprog =>
        refine ⟨hS.holds, fun u hu => ?_⟩
        rcases List.mem_or_eq_of_mem_set hu with hu | rfl
        · exact hS.informed u hu
        · exact (hS.informed t hmem).read htrans hrefl hprog hS.holds
      · next f next hprog =>
        refine ⟨?_, fun u hu => ?_⟩
        · by_cases hdisturbed : t.disturbed = true
          · have hcalm : t.calm r S.store = true := by simpa [System.Calm, ht] using hact
            rw [Thread.calm, hprog, hdisturbed] at hcalm
            exact hI _ _ hS.holds hcalm
          · obtain ⟨known, hs, -, hkeeps⟩ :=
              (hS.informed t hmem).keeps (eq_false_of_ne_true hdisturbed)
            rw [hprog] at hkeeps
            exact (hkeeps S.store hS.holds hs).1
        · rcases List.mem_or_eq_of_mem_set hu with hu | rfl
          · obtain ⟨v, hv, rfl⟩ := List.mem_map.mp hu
            exact (hS.informed v hv).bear (f S.store)
          · exact (hS.informed t hmem).write htrans hrefl hprog hS.holds

/-- **An invariant that the programs keep** holds in every state of a run that is calm. -/
theorem System.invariant (hrefl : ∀ s, r s s = true) (hI : ∀ s s', I s → r s s' = true → I s')
    (hprograms : ∀ p, programs p → p.Keeps (fun s s' => r s s' = true) I fun _ => True)
    {s : σ} {acts : List (Act σ)} (hs : I s)
    (hrun : Run (System.step r) (System.Calm r programs) ⟨s, []⟩ acts S) : I S.store := by
  have hsecure : S.Secure r I :=
    hrun.invariant (fun _ _ hS hact => hS.step htrans hrefl hI hprograms hact)
      ⟨hs, fun t ht => nomatch ht⟩
  exact hsecure.holds

end Reliance

end Interleaving
