import Mathlib.Logic.Basic

/-!
# Programs that may fail or stop at any step

`Faulty ε σ α` is the type of sequential programs over a state `σ` whose atomic
steps are at the mercy of an environment.  A *fate* for each atomic step says
whether it is taken, or raises an exception instead, or is never reached because
the process is gone.  A program is a function of its state and of a list of fates,
so that *every schedule of faults* is a quantifier over that list; when the list is
used up, the remaining steps are taken.

An exception can be caught and keeps the state it was raised in.  A crash cannot be
caught.  Since the state left by a crash is the state at the moment of the crash,
what holds of the outcome under all schedules holds *at every moment* of a run.

`Wp` is the weakest precondition for the three ways a run can end, relative to the
fates that are `allowed`.  The same proof then serves two purposes: with every fate
allowed it is a statement about all schedules, and with none allowed, where the
postconditions of the two abnormal ends are refutable, it says that the
uninterrupted run returns (`Wp.returns`).
-/

namespace Ros1Tools.Lib

variable {ε σ α β : Type}

/-- What happens to one atomic step. -/
inductive Fate (ε : Type) where
  | proceed
  | error (e : ε)
  | crash
deriving DecidableEq, Repr

abbrev Fates (ε : Type) := List (Fate ε)

/-- How a run ends.  The fates that were not used are left for what comes next. -/
inductive Outcome (ε σ α : Type) where
  | done (a : α) (s : σ) (rest : Fates ε)
  | raised (e : ε) (s : σ) (rest : Fates ε)
  | crashed (s : σ)

/-- The state a run leaves behind. -/
def Outcome.state : Outcome ε σ α → σ
  | .done _ s _ => s
  | .raised _ s _ => s
  | .crashed s => s

instance Outcome.decidableRaised (o : Outcome ε σ α) :
    Decidable (∃ e s rest, o = .raised e s rest) :=
  match o with
  | .done _ _ _ => .isFalse nofun
  | .raised e s rest => .isTrue ⟨e, s, rest, rfl⟩
  | .crashed _ => .isFalse nofun

instance Outcome.decidableDone [DecidableEq α] (a : α) (o : Outcome ε σ α) :
    Decidable (∃ s rest, o = .done a s rest) :=
  match o with
  | .done a' s rest => decidable_of_iff (a' = a)
      ⟨fun h => ⟨s, rest, by rw [h]⟩, fun ⟨_, _, h⟩ => (Outcome.done.inj h).1⟩
  | .raised _ _ _ => .isFalse nofun
  | .crashed _ => .isFalse nofun

/-- A program whose atomic steps may fail. -/
def Faulty (ε σ α : Type) : Type := σ → Fates ε → Outcome ε σ α

namespace Faulty

/-! ## Programs -/

protected def pure (a : α) : Faulty ε σ α := fun s fates => .done a s fates

protected def bind (m : Faulty ε σ α) (k : α → Faulty ε σ β) : Faulty ε σ β := fun s fates =>
  match m s fates with
  | .done a s rest => k a s rest
  | .raised e s rest => .raised e s rest
  | .crashed s => .crashed s

instance instMonad : Monad (Faulty ε σ) where
  pure := Faulty.pure
  bind := Faulty.bind

protected def throw (e : ε) : Faulty ε σ α := fun s fates => .raised e s fates

/-- Runs the handler from the state the exception was raised in. -/
protected def tryCatch (m : Faulty ε σ α) (handler : ε → Faulty ε σ α) : Faulty ε σ α :=
  fun s fates =>
    match m s fates with
    | .raised e s rest => handler e s rest
    | outcome => outcome

instance instMonadExceptOf : MonadExceptOf ε (Faulty ε σ) where
  throw := Faulty.throw
  tryCatch := Faulty.tryCatch

/-- Reads the state, which takes no step. -/
def gets (f : σ → α) : Faulty ε σ α := fun s fates => .done (f s) s fates

/-- Changes what only this process sees, which takes no step. -/
def modify (f : σ → σ) : Faulty ε σ Unit := fun s fates => .done () (f s) fates

/-- Changes what only this process sees and answers, which takes no step. -/
def modifyGet (f : σ → α × σ) : Faulty ε σ α := fun s fates => .done (f s).1 (f s).2 fates

/-- A computation that only may raise, which takes no step. -/
def lift : Except ε α → Faulty ε σ α
  | .ok a => Faulty.pure a
  | .error e => Faulty.throw e

/-- Raises an exception unless the condition holds. -/
def require (c : Prop) [Decidable c] (e : ε) : Faulty ε σ Unit :=
  if c then Faulty.pure () else Faulty.throw e

/-- `try … finally`: the clean-up runs behind the body, whether that returns or raises. -/
def ensuring (cleanup : Faulty ε σ Unit) (m : Faulty ε σ α) : Faulty ε σ α := do
  let a ← tryCatch m fun e => do
    cleanup
    throw e
  cleanup
  pure a

/-- What one step does when it is taken. -/
def perform (f : σ → Except ε (α × σ)) (s : σ) (rest : Fates ε) : Outcome ε σ α :=
  match f s with
  | .ok (a, s') => .done a s' rest
  | .error e => .raised e s rest

/-- One atomic step.  It is taken as a whole, or not at all. -/
def atomic (f : σ → Except ε (α × σ)) : Faulty ε σ α
  | s, [] => perform f s []
  | s, .proceed :: rest => perform f s rest
  | s, .error e :: rest => .raised e s rest
  | s, .crash :: _ => .crashed s

/-! ## Evaluating a program -/

section Evaluation

variable (s : σ) (fates : Fates ε)

theorem bind_apply (m : Faulty ε σ α) (k : α → Faulty ε σ β) :
    (m >>= k) s fates =
      match m s fates with
      | .done a s rest => k a s rest
      | .raised e s rest => .raised e s rest
      | .crashed s => .crashed s := rfl

theorem tryCatch_apply (m : Faulty ε σ α) (handler : ε → Faulty ε σ α) :
    (tryCatch m handler) s fates =
      match m s fates with
      | .raised e s rest => handler e s rest
      | outcome => outcome := rfl

@[simp] theorem pure_apply (a : α) : (pure a : Faulty ε σ α) s fates = .done a s fates := rfl

@[simp] theorem throw_apply (e : ε) : (throw e : Faulty ε σ α) s fates = .raised e s fates := rfl

@[simp] theorem gets_apply (f : σ → α) : gets f s fates = .done (f s) s fates := rfl

@[simp] theorem modify_apply (f : σ → σ) : modify f s fates = .done () (f s) fates := rfl

@[simp] theorem modifyGet_apply (f : σ → α × σ) :
    modifyGet f s fates = .done (f s).1 (f s).2 fates := rfl

end Evaluation

/-! ## Postconditions -/

/-- What is asked of each of the three ways a run can end. -/
structure Post (ε σ α : Type) where
  ret : α → σ → Prop
  exc : ε → σ → Prop
  crash : σ → Prop

variable (allowed : Fate ε → Prop)

/-- An outcome meets a postcondition, and has left only allowed fates. -/
def Meets (Q : Post ε σ α) : Outcome ε σ α → Prop
  | .done a s rest => Q.ret a s ∧ ∀ fate ∈ rest, allowed fate
  | .raised e s rest => Q.exc e s ∧ ∀ fate ∈ rest, allowed fate
  | .crashed s => Q.crash s

/-- Every run from `s` under allowed fates meets the postcondition. -/
def Wp (m : Faulty ε σ α) (Q : Post ε σ α) (s : σ) : Prop :=
  ∀ fates, (∀ fate ∈ fates, allowed fate) → Meets allowed Q (m s fates)

variable {allowed} {m : Faulty ε σ α} {k : α → Faulty ε σ β} {s : σ}
  {R R' : α → σ → Prop} {S : β → σ → Prop} {E F : ε → σ → Prop} {C C' : σ → Prop}

/-- The postconditions may be weakened. -/
theorem Wp.mono (h : Wp allowed m ⟨R, E, C⟩ s) (hret : ∀ a s, R a s → R' a s)
    (hexc : ∀ e s, E e s → F e s) (hcrash : ∀ s, C s → C' s) :
    Wp allowed m ⟨R', F, C'⟩ s := by
  intro fates hfates
  have hm := h fates hfates
  cases hout : m s fates with
  | done a s' rest => rw [hout] at hm; exact ⟨hret _ _ hm.1, hm.2⟩
  | raised e s' rest => rw [hout] at hm; exact ⟨hexc _ _ hm.1, hm.2⟩
  | crashed s' => rw [hout] at hm; exact hcrash _ hm

theorem Wp.ret_mono (h : Wp allowed m ⟨R, E, C⟩ s) (hret : ∀ a s, R a s → R' a s) :
    Wp allowed m ⟨R', E, C⟩ s :=
  h.mono hret (fun _ _ he => he) fun _ hc => hc

theorem Wp.pure {a : α} (h : R a s) : Wp allowed (Pure.pure a : Faulty ε σ α) ⟨R, E, C⟩ s :=
  fun _ hfates => ⟨h, hfates⟩

theorem Wp.throw {e : ε} (h : E e s) :
    Wp allowed (MonadExcept.throw e : Faulty ε σ α) ⟨R, E, C⟩ s :=
  fun _ hfates => ⟨h, hfates⟩

theorem Wp.gets {f : σ → α} (h : R (f s) s) : Wp allowed (gets f) ⟨R, E, C⟩ s :=
  fun _ hfates => ⟨h, hfates⟩

theorem Wp.modify {f : σ → σ} {R : Unit → σ → Prop} (h : R () (f s)) :
    Wp allowed (modify f) ⟨R, E, C⟩ s :=
  fun _ hfates => ⟨h, hfates⟩

theorem Wp.modifyGet {f : σ → α × σ} (h : R (f s).1 (f s).2) :
    Wp allowed (modifyGet f) ⟨R, E, C⟩ s :=
  fun _ hfates => ⟨h, hfates⟩

theorem Wp.lift {x : Except ε α} (hok : ∀ a, x = .ok a → R a s)
    (herror : ∀ e, x = .error e → E e s) : Wp allowed (lift x) ⟨R, E, C⟩ s := by
  intro fates hfates
  cases x with
  | ok a => exact ⟨hok a rfl, hfates⟩
  | error e => exact ⟨herror e rfl, hfates⟩

theorem Wp.require {c : Prop} [Decidable c] {e : ε} {R : Unit → σ → Prop} (hpos : c → R () s)
    (hneg : ¬c → E e s) : Wp allowed (require c e) ⟨R, E, C⟩ s := by
  intro fates hfates
  unfold Faulty.require
  split
  · rename_i hc
    exact ⟨hpos hc, hfates⟩
  · rename_i hc
    exact ⟨hneg hc, hfates⟩

/-- **Sequencing.**  What the first program ensures is what the second one starts from. -/
theorem Wp.bind (h : Wp allowed m ⟨R, E, C⟩ s)
    (hk : ∀ a s', R a s' → Wp allowed (k a) ⟨S, E, C⟩ s') :
    Wp allowed (m >>= k) ⟨S, E, C⟩ s := by
  intro fates hfates
  have hm := h fates hfates
  change Meets allowed _ (Faulty.bind m k s fates)
  unfold Faulty.bind
  cases hout : m s fates with
  | done a s' rest => rw [hout] at hm; exact hk a s' hm.1 rest hm.2
  | raised e s' rest => rw [hout] at hm; exact hm
  | crashed s' => rw [hout] at hm; exact hm

/-- The state in which the first program returns is known. -/
theorem Wp.bind_eq {t : σ} (h : Wp allowed m ⟨fun _ s' => t = s', E, C⟩ s)
    (hk : ∀ a, Wp allowed (k a) ⟨S, E, C⟩ t) : Wp allowed (m >>= k) ⟨S, E, C⟩ s :=
  Wp.bind h fun a _ hs => hs ▸ hk a

/-- **Catching.**  The handler starts from what holds when an exception is raised. -/
theorem Wp.tryCatch {handler : ε → Faulty ε σ α} (h : Wp allowed m ⟨R, F, C⟩ s)
    (hh : ∀ e s', F e s' → Wp allowed (handler e) ⟨R, E, C⟩ s') :
    Wp allowed (MonadExcept.tryCatch m handler) ⟨R, E, C⟩ s := by
  intro fates hfates
  have hm := h fates hfates
  change Meets allowed _ (Faulty.tryCatch m handler s fates)
  unfold Faulty.tryCatch
  cases hout : m s fates with
  | done a s' rest => rw [hout] at hm; exact hm
  | raised e s' rest => rw [hout] at hm; exact hh e s' hm.1 rest hm.2
  | crashed s' => rw [hout] at hm; exact hm

/-- **Cleaning up.**  An exception of the clean-up takes the place of the body's. -/
theorem Wp.ensuring {cleanup : Faulty ε σ Unit} (h : Wp allowed m ⟨R, F, C⟩ s)
    (hret : ∀ a s', R a s' → Wp allowed cleanup ⟨fun _ => R' a, E, C⟩ s')
    (hexc : ∀ e s', F e s' → Wp allowed cleanup ⟨fun _ => E e, E, C⟩ s') :
    Wp allowed (ensuring cleanup m) ⟨R', E, C⟩ s := by
  refine Wp.bind (R := R) (Wp.tryCatch h fun e s' hF => ?_) fun a s' hR => ?_
  · exact Wp.bind (hexc e s' hF) fun _ _ hE => Wp.throw hE
  · exact Wp.bind (hret a s' hR) fun _ _ hR' => Wp.pure hR'

/-- **An atomic step** can end abnormally only in the state it starts in. -/
theorem Wp.atomic {f : σ → Except ε (α × σ)} (hok : ∀ a s', f s = .ok (a, s') → R a s')
    (herror : ∀ e, f s = .error e → E e s) (hraise : ∀ e, allowed (.error e) → E e s)
    (hcrash : allowed .crash → C s) : Wp allowed (atomic f) ⟨R, E, C⟩ s := by
  have htaken : ∀ rest, (∀ fate ∈ rest, allowed fate) →
      Meets allowed ⟨R, E, C⟩ (perform f s rest) := by
    intro rest hrest
    unfold perform
    split
    · rename_i a s' hf
      exact ⟨hok a s' hf, hrest⟩
    · rename_i e hf
      exact ⟨herror e hf, hrest⟩
  intro fates hfates
  cases fates with
  | nil => exact htaken [] hfates
  | cons fate rest =>
      obtain ⟨hfate, hrest⟩ := List.forall_mem_cons.mp hfates
      cases fate with
      | proceed => exact htaken rest hrest
      | error e => exact ⟨hraise e hfate, hrest⟩
      | crash => exact hcrash hfate

/-- **The loop rule.**  An invariant over the elements already treated. -/
theorem Wp.foldlM {f : α → β → Faulty ε σ α} {I : List β → α → σ → Prop} {bs : List β}
    (hstep : ∀ treated b todo a s, treated ++ b :: todo = bs → I treated a s →
      Wp allowed (f a b) ⟨I (treated ++ [b]), E, C⟩ s)
    {a : α} (h : I [] a s) : Wp allowed (bs.foldlM f a) ⟨I bs, E, C⟩ s := by
  suffices hall : ∀ todo treated a s, treated ++ todo = bs → I treated a s →
      Wp allowed (todo.foldlM f a) ⟨I bs, E, C⟩ s from hall bs [] a s rfl h
  intro todo
  induction todo with
  | nil =>
      intro treated a s hsplit hI
      rw [List.append_nil] at hsplit
      subst hsplit
      exact Wp.pure hI
  | cons b todo ih =>
      intro treated a s hsplit hI
      rw [List.foldlM_cons]
      refine Wp.bind (hstep treated b todo a s hsplit hI) fun a' s' hI' => ?_
      exact ih (treated ++ [b]) a' s' (by rw [List.append_assoc]; exact hsplit) hI'

/-! ## Reading a precondition off a run -/

/-- Where both abnormal ends are excluded, the run that meets no fault returns. -/
theorem Wp.returns (h : Wp (fun _ => False) m ⟨R, E, C⟩ s) (hexc : ∀ e s, ¬E e s)
    (hcrash : ∀ s, ¬C s) : ∃ a s', m s [] = .done a s' [] ∧ R a s' := by
  have hm := h [] (by simp)
  cases hout : m s [] with
  | done a s' rest =>
      rw [hout] at hm
      obtain rfl : rest = [] := List.eq_nil_iff_forall_not_mem.mpr hm.2
      exact ⟨a, s', rfl, hm.1⟩
  | raised e s' rest => rw [hout] at hm; exact absurd hm.1 (hexc e s')
  | crashed s' => rw [hout] at hm; exact absurd hm (hcrash s')

/-- Where both abnormal ends are excluded, a run under allowed fates returns. -/
theorem Wp.done (h : Wp allowed m ⟨R, E, C⟩ s) (hexc : ∀ e s, ¬E e s) (hcrash : ∀ s, ¬C s)
    {fates : Fates ε} (hfates : ∀ fate ∈ fates, allowed fate) :
    ∃ a s' rest, m s fates = .done a s' rest ∧ R a s' := by
  have hm := h fates hfates
  cases hout : m s fates with
  | done a s' rest => rw [hout] at hm; exact ⟨a, s', rest, rfl, hm.1⟩
  | raised e s' rest => rw [hout] at hm; exact absurd hm.1 (hexc e s')
  | crashed s' => rw [hout] at hm; exact absurd hm (hcrash s')

/-- What holds of a run that returns. -/
theorem Wp.of_done (h : Wp (fun _ => True) m ⟨R, E, C⟩ s) {fates rest : Fates ε} {a : α}
    {s' : σ} (hdone : m s fates = .done a s' rest) : R a s' := by
  have hm := h fates fun _ _ => trivial
  rw [hdone] at hm
  exact hm.1

/-- What holds of a run that raises. -/
theorem Wp.of_raised (h : Wp (fun _ => True) m ⟨R, E, C⟩ s) {fates rest : Fates ε} {e : ε}
    {s' : σ} (hraised : m s fates = .raised e s' rest) : E e s' := by
  have hm := h fates fun _ _ => trivial
  rw [hraised] at hm
  exact hm.1

/-- What holds at every end holds of the state a run leaves behind. -/
theorem Wp.state {P : σ → Prop} {fates : Fates ε}
    (h : Wp (fun _ => True) m ⟨fun _ => P, fun _ => P, P⟩ s) : P (m s fates).state := by
  have hm := h fates fun _ _ => trivial
  cases hout : m s fates with
  | done a s' rest => rw [hout] at hm; exact hm.1
  | raised e s' rest => rw [hout] at hm; exact hm.1
  | crashed s' => rw [hout] at hm; exact hm

end Faulty

end Ros1Tools.Lib
