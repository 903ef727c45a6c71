import Ros1Tools.Lib.Faulty

/-!
# Simulation between programs that may fail

`Sim` relates a program over concrete states to one over abstract states.  Each run of
the first, under any schedule of faults, is a run of the second under some schedule of
its own: both return, raise the same exception or stop in states that correspond.

A concrete state may also remember states that a loss of its cache would bring back
(`Abstraction.past`).  Every state that a program adds to them has to be one at which the
abstract program could have been stopped, so that *losing the cache is no more than
having been stopped earlier*.

The rules follow the constructors of `Faulty`.  A block of concrete steps that stands for
a few abstract ones is treated as a whole, from its weakest precondition (`Sim.of_wp`).
-/

namespace Ros1Tools.Lib.Faulty

variable {ε σ τ δ α β : Type}

/-- How concrete states are seen from above. -/
structure Abstraction (τ σ δ : Type) where
  /-- The abstract state. -/
  view : τ → σ
  /-- What outlives the process. -/
  kept : σ → δ
  /-- What a loss of the cache may bring back. -/
  past : τ → List δ

namespace Abstraction

/-- Every state is its own abstraction, and nothing is cached. -/
protected def id (σ : Type) : Abstraction σ σ Unit := ⟨fun s => s, fun _ => (), fun _ => []⟩

variable (A : Abstraction τ σ δ)

/-- What may come back at `t'` might have come back at `t`, or is where the abstract
program can be stopped. -/
def Recent (m' : Faulty ε σ α) (t t' : τ) : Prop :=
  ∀ d ∈ A.past t', d ∈ A.past t ∨ ∃ fates s, m' (A.view t) fates = .crashed s ∧ A.kept s = d

end Abstraction

variable (A : Abstraction τ σ δ) (allowed : Fate ε → Prop)

/-- A schedule of faults that goes on with `rest`, and has no fault before that but
allowed ones. -/
def Leads (rest fates : Fates ε) : Prop :=
  ∀ fate ∈ fates, fate = .proceed ∨ allowed fate ∨ fate ∈ rest

/-- An outcome as it is seen from above, with other faults left. -/
def above (view : τ → σ) (rest : Fates ε) : Outcome ε τ α → Outcome ε σ α
  | .done a t _ => .done a (view t) rest
  | .raised e t _ => .raised e (view t) rest
  | .crashed t => .crashed (view t)

/-- An outcome of a concrete program is one of the abstract program.  The faults left for
what comes next can be chosen. -/
structure Follows (m' : Faulty ε σ α) (t : τ) (o : Outcome ε τ α) : Prop where
  recent : A.Recent m' t o.state
  runs : ∀ rest, ∃ fates, Leads allowed rest fates ∧ m' (A.view t) fates = above A.view rest o

/-- Every run of `m` from `t` under allowed faults is a run of `m'` under allowed faults,
and meets the postcondition. -/
structure Sim (Q : Post ε τ α) (m : Faulty ε τ α) (m' : Faulty ε σ α) (t : τ) : Prop where
  wp : Wp allowed m Q t
  follows : ∀ fates, (∀ fate ∈ fates, allowed fate) → Follows A allowed m' t (m t fates)

variable {A allowed} {m : Faulty ε τ α} {m' : Faulty ε σ α} {k : α → Faulty ε τ β}
  {k' : α → Faulty ε σ β} {t t' : τ} {R R' : α → τ → Prop} {S : β → τ → Prop}
  {E F : ε → τ → Prop} {C C' : τ → Prop}

theorem state_above (rest : Fates ε) (o : Outcome ε τ α) :
    (above A.view rest o).state = A.view o.state := by
  cases o <;> rfl

namespace Leads

variable {rest fates fates' : Fates ε}

theorem refl : Leads allowed rest rest := fun _ h => .inr (.inr h)

theorem proceed (h : Leads allowed rest fates) : Leads allowed rest (.proceed :: fates) :=
  List.forall_mem_cons.mpr ⟨.inl rfl, h⟩

theorem cons {fate : Fate ε} (hfate : allowed fate) (h : Leads allowed rest fates) :
    Leads allowed rest (fate :: fates) :=
  List.forall_mem_cons.mpr ⟨.inr (.inl hfate), h⟩

theorem trans (h : Leads allowed fates fates') (h' : Leads allowed rest fates) :
    Leads allowed rest fates' := by
  intro fate hfate
  rcases h fate hfate with hproceed | hallowed | hmem
  · exact .inl hproceed
  · exact .inr (.inl hallowed)
  · exact h' fate hmem

end Leads

theorem Abstraction.Recent.of_past_eq (h : A.past t' = A.past t) : A.Recent m' t t' :=
  fun _ hd => .inl (h ▸ hd)

/-- A stop of a part is a stop of the whole. -/
theorem Abstraction.Recent.of_crashed {n' : Faulty ε σ β} (h : A.Recent m' t t')
    (hcrashed : ∀ fates s, m' (A.view t) fates = .crashed s → n' (A.view t) fates = .crashed s) :
    A.Recent n' t t' := by
  intro d hd
  refine (h d hd).imp_right ?_
  rintro ⟨fates, s, hcrash, hkept⟩
  exact ⟨fates, s, hcrashed fates s hcrash, hkept⟩

/-- An outcome of a part is one of the whole, if every run of the part is continued from
a run of the whole. -/
theorem Follows.of_part {n n' : Faulty ε σ α} {o : Outcome ε τ α} (h : Follows A allowed n t' o)
    (hrecent : A.Recent n' t t') (hruns : ∀ fates, ∃ fates', Leads allowed fates fates' ∧
      n' (A.view t) fates' = n (A.view t') fates) : Follows A allowed n' t o where
  recent d hd := by
    rcases h.recent d hd with hpast | ⟨fates, s, hcrash, hkept⟩
    · exact hrecent d hpast
    · obtain ⟨fates', -, hfates'⟩ := hruns fates
      exact .inr ⟨fates', s, hfates'.trans hcrash, hkept⟩
  runs rest := by
    obtain ⟨fates, hleads, hfates⟩ := h.runs rest
    obtain ⟨fates', hleads', hfates'⟩ := hruns fates
    exact ⟨fates', hleads'.trans hleads, hfates'.trans hfates⟩

/-- Where a part ends, the whole does. -/
theorem Follows.of_end {n' : Faulty ε σ β} {o : Outcome ε τ α} {o' : Outcome ε τ β}
    (h : Follows A allowed m' t o) (hrecent : A.Recent n' t o'.state)
    (hends : ∀ fates rest, m' (A.view t) fates = above A.view rest o →
      n' (A.view t) fates = above A.view rest o') : Follows A allowed n' t o' := by
  refine ⟨hrecent, fun rest => ?_⟩
  obtain ⟨fates, hleads, hfates⟩ := h.runs rest
  exact ⟨fates, hleads, hends fates rest hfates⟩

/-! ## The rules -/

theorem Sim.mono (h : Sim A allowed ⟨R, E, C⟩ m m' t) (hret : ∀ a t, R a t → R' a t)
    (hexc : ∀ e t, E e t → F e t) (hcrash : ∀ t, C t → C' t) :
    Sim A allowed ⟨R', F, C'⟩ m m' t :=
  ⟨h.wp.mono hret hexc hcrash, h.follows⟩

theorem Sim.pure {a : α} (h : R a t) :
    Sim A allowed ⟨R, E, C⟩ (Pure.pure a : Faulty ε τ α) (Pure.pure a) t :=
  ⟨Wp.pure h, fun _ _ => ⟨.of_past_eq rfl, fun rest => ⟨rest, .refl, rfl⟩⟩⟩

theorem Sim.throw {e : ε} (h : E e t) :
    Sim A allowed ⟨R, E, C⟩ (MonadExcept.throw e : Faulty ε τ α) (MonadExcept.throw e) t :=
  ⟨Wp.throw h, fun _ _ => ⟨.of_past_eq rfl, fun rest => ⟨rest, .refl, rfl⟩⟩⟩

theorem Sim.gets {f : τ → α} {f' : σ → α} (hf : f t = f' (A.view t)) (h : R (f t) t) :
    Sim A allowed ⟨R, E, C⟩ (gets f) (gets f') t :=
  ⟨Wp.gets h, fun _ _ => ⟨.of_past_eq rfl, fun rest =>
    ⟨rest, .refl, congrArg (Outcome.done · (A.view t) rest) hf.symm⟩⟩⟩

theorem Sim.modify {f : τ → τ} {f' : σ → σ} {R : Unit → τ → Prop}
    (hf : A.view (f t) = f' (A.view t)) (hpast : A.past (f t) = A.past t) (h : R () (f t)) :
    Sim A allowed ⟨R, E, C⟩ (modify f) (modify f') t :=
  ⟨Wp.modify h, fun _ _ => ⟨.of_past_eq hpast, fun rest =>
    ⟨rest, .refl, congrArg (Outcome.done () · rest) hf.symm⟩⟩⟩

theorem Sim.require {c : Prop} [Decidable c] {e : ε} {R : Unit → τ → Prop} (hpos : c → R () t)
    (hneg : ¬c → E e t) : Sim A allowed ⟨R, E, C⟩ (require c e) (require c e) t := by
  unfold Faulty.require
  split
  · rename_i hc
    exact Sim.pure (hpos hc)
  · rename_i hc
    exact Sim.throw (hneg hc)

/-- **Sequencing.** -/
theorem Sim.bind (h : Sim A allowed ⟨R, E, C⟩ m m' t)
    (hk : ∀ a t', R a t' → Sim A allowed ⟨S, E, C⟩ (k a) (k' a) t') :
    Sim A allowed ⟨S, E, C⟩ (m >>= k) (m' >>= k') t := by
  refine ⟨h.wp.bind fun a t' hR => (hk a t' hR).wp, fun fates hfates => ?_⟩
  have hmeets := h.wp fates hfates
  have hfollows := h.follows fates hfates
  have hpart : A.Recent (m' >>= k') t (m t fates).state :=
    hfollows.recent.of_crashed fun _ _ hcrash => by rw [bind_apply, hcrash]
  rw [bind_apply]
  cases hout : m t fates with
  | done a t' left =>
      rw [hout] at hmeets hfollows hpart
      refine ((hk a t' hmeets.1).follows left hmeets.2).of_part hpart fun fates' => ?_
      obtain ⟨fates'', hleads, hfates''⟩ := hfollows.runs fates'
      exact ⟨fates'', hleads, by rw [bind_apply, hfates'']; rfl⟩
  | raised e t' left =>
      rw [hout] at hfollows hpart
      exact hfollows.of_end hpart fun _ _ hrun => by rw [bind_apply, hrun]; rfl
  | crashed t' =>
      rw [hout] at hfollows hpart
      exact hfollows.of_end hpart fun _ _ hrun => by rw [bind_apply, hrun]; rfl

/-- **Catching.** -/
theorem Sim.tryCatch {handler : ε → Faulty ε τ α} {handler' : ε → Faulty ε σ α}
    (h : Sim A allowed ⟨R, F, C⟩ m m' t)
    (hh : ∀ e t', F e t' → Sim A allowed ⟨R, E, C⟩ (handler e) (handler' e) t') :
    Sim A allowed ⟨R, E, C⟩ (MonadExcept.tryCatch m handler)
      (MonadExcept.tryCatch m' handler') t := by
  refine ⟨h.wp.tryCatch fun e t' hF => (hh e t' hF).wp, fun fates hfates => ?_⟩
  have hmeets := h.wp fates hfates
  have hfollows := h.follows fates hfates
  have hpart : A.Recent (MonadExcept.tryCatch m' handler') t (m t fates).state :=
    hfollows.recent.of_crashed fun _ _ hcrash => by rw [tryCatch_apply, hcrash]
  rw [tryCatch_apply]
  cases hout : m t fates with
  | done a t' left =>
      rw [hout] at hfollows hpart
      exact hfollows.of_end hpart fun _ _ hrun => by rw [tryCatch_apply, hrun]; rfl
  | raised e t' left =>
      rw [hout] at hmeets hfollows hpart
      refine ((hh e t' hmeets.1).follows left hmeets.2).of_part hpart fun fates' => ?_
      obtain ⟨fates'', hleads, hfates''⟩ := hfollows.runs fates'
      exact ⟨fates'', hleads, by rw [tryCatch_apply, hfates'']; rfl⟩
  | crashed t' =>
      rw [hout] at hfollows hpart
      exact hfollows.of_end hpart fun _ _ hrun => by rw [tryCatch_apply, hrun]; rfl

/-- **An atomic step** that is an abstract one.  The state it starts in, where the
abstract step can be stopped, may be brought back later. -/
theorem Sim.atomic {f : τ → Except ε (α × τ)} {f' : σ → Except ε (α × σ)}
    (hok : ∀ a t', f t = .ok (a, t') → f' (A.view t) = .ok (a, A.view t') ∧ R a t' ∧
      ∀ d ∈ A.past t', d ∈ A.past t ∨ A.kept (A.view t) = d)
    (herror : ∀ e, f t = .error e → f' (A.view t) = .error e) (hE : ∀ e, E e t) (hC : C t) :
    Sim A allowed ⟨R, E, C⟩ (atomic f) (atomic f') t := by
  refine ⟨Wp.atomic (fun a t' hf => (hok a t' hf).2.1) (fun e _ => hE e) (fun e _ => hE e)
    fun _ => hC, ?_⟩
  have htaken : ∀ left, Follows A allowed (Faulty.atomic f') t (perform f t left) := by
    intro left
    unfold perform
    split
    · rename_i a t' hf
      obtain ⟨hf', -, hpast⟩ := hok a t' hf
      refine ⟨fun d hd => (hpast d hd).imp_right fun hkept => ?_, fun rest => ?_⟩
      · exact ⟨[.crash], A.view t, rfl, hkept⟩
      · exact ⟨.proceed :: rest, .proceed .refl, by simp only [Faulty.atomic, perform, hf', above]⟩
    · rename_i e hf
      refine ⟨.of_past_eq rfl, fun rest => ⟨.proceed :: rest, .proceed .refl, ?_⟩⟩
      simp only [Faulty.atomic, perform, herror e hf, above]
  intro fates hfates
  cases fates with
  | nil => exact htaken []
  | cons fate left =>
      have hfate := (List.forall_mem_cons.mp hfates).1
      cases fate with
      | proceed => exact htaken left
      | error e =>
          exact ⟨.of_past_eq rfl, fun rest => ⟨.error e :: rest, .cons hfate .refl, rfl⟩⟩
      | crash =>
          exact ⟨.of_past_eq rfl, fun _ => ⟨[.crash], .cons hfate fun _ h => by simp at h, rfl⟩⟩

/-- An atomic step simulates itself. -/
theorem Sim.atomic_self {f : σ → Except ε (α × σ)} {s : σ} {R : α → σ → Prop} {E : ε → σ → Prop}
    {C : σ → Prop} (hok : ∀ a s', f s = .ok (a, s') → R a s') (hE : ∀ e, E e s) (hC : C s) :
    Sim (.id σ) allowed ⟨R, E, C⟩ (Faulty.atomic f) (Faulty.atomic f) s :=
  Sim.atomic (fun a s' hf => ⟨hf, hok a s' hf, fun _ h => .inl h⟩) (fun _ hf => hf) hE hC

/-- **The loop rule.**  An invariant over the elements already treated. -/
theorem Sim.foldlM {f : α → β → Faulty ε τ α} {f' : α → β → Faulty ε σ α}
    {I : List β → α → τ → Prop} {bs : List β}
    (hstep : ∀ treated b todo a t, treated ++ b :: todo = bs → I treated a t →
      Sim A allowed ⟨I (treated ++ [b]), E, C⟩ (f a b) (f' a b) t)
    {a : α} (h : I [] a t) : Sim A allowed ⟨I bs, E, C⟩ (bs.foldlM f a) (bs.foldlM f' a) t := by
  suffices hall : ∀ todo treated a t, treated ++ todo = bs → I treated a t →
      Sim A allowed ⟨I bs, E, C⟩ (todo.foldlM f a) (todo.foldlM f' a) t from hall bs [] a t rfl h
  intro todo
  induction todo with
  | nil =>
      intro treated a t hsplit hI
      rw [List.append_nil] at hsplit
      subst hsplit
      exact Sim.pure hI
  | cons b todo ih =>
      intro treated a t hsplit hI
      rw [List.foldlM_cons, List.foldlM_cons]
      refine Sim.bind (hstep treated b todo a t hsplit hI) fun a' t' hI' => ?_
      exact ih (treated ++ [b]) a' t' (by rw [List.append_assoc]; exact hsplit) hI'

/-! ## Programs that only look -/

/-- Runs an abstract program on the view, and takes over what it changed. -/
def zoom (view : τ → σ) (put : σ → τ → τ) (m' : Faulty ε σ α) : Faulty ε τ α := fun t fates =>
  match m' (view t) fates with
  | .done a s rest => .done a (put s t) rest
  | .raised e s rest => .raised e (put s t) rest
  | .crashed s => .crashed (put s t)

/-- An abstract program run on the view is itself, if what it leaves can be put back.
That the faults left over can be chosen is a property of the program, which is its
simulation of itself. -/
theorem Sim.zoom {put : σ → τ → τ} {V : σ → Prop} {R' : α → σ → Prop}
    (h : Sim (.id σ) allowed ⟨fun a s => V s ∧ R' a s, fun _ => V, V⟩ m' m' (A.view t))
    (hput : ∀ s, V s → A.view (put s t) = s ∧ A.past (put s t) = A.past t)
    (hret : ∀ a s, V s → R' a s → R a (put s t)) (hexc : ∀ e s, V s → E e (put s t))
    (hcrash : ∀ s, V s → C (put s t)) : Sim A allowed ⟨R, E, C⟩ (zoom A.view put m') m' t := by
  refine ⟨fun fates hfates => ?_, fun fates hfates => ?_⟩
  · have hmeets := h.wp fates hfates
    unfold Faulty.zoom
    cases hout : m' (A.view t) fates with
    | done a s left => rw [hout] at hmeets; exact ⟨hret a s hmeets.1.1 hmeets.1.2, hmeets.2⟩
    | raised e s left => rw [hout] at hmeets; exact ⟨hexc e s hmeets.1, hmeets.2⟩
    | crashed s => rw [hout] at hmeets; exact hcrash s hmeets
  · have hmeets := h.wp fates hfates
    have hruns := (h.follows fates hfates).runs
    unfold Faulty.zoom
    cases hout : m' (A.view t) fates with
    | done a s left =>
        rw [hout] at hmeets hruns
        obtain ⟨hview, hpast⟩ := hput s hmeets.1.1
        exact ⟨.of_past_eq hpast, by simp only [above, hview]; exact hruns⟩
    | raised e s left =>
        rw [hout] at hmeets hruns
        obtain ⟨hview, hpast⟩ := hput s hmeets.1
        exact ⟨.of_past_eq hpast, by simp only [above, hview]; exact hruns⟩
    | crashed s =>
        rw [hout] at hmeets hruns
        obtain ⟨hview, hpast⟩ := hput s hmeets
        exact ⟨.of_past_eq hpast, by simp only [above, hview]; exact hruns⟩

/-! ## Blocks -/

/-- **A block.**  Where a block of concrete steps ends is where the abstract program can
end in the same way. -/
theorem Sim.of_wp {Q : Post ε τ α} (h : Wp allowed m Q t)
    (hfollows : ∀ o, Meets allowed Q o → Follows A allowed m' t o) : Sim A allowed Q m m' t :=
  ⟨h, fun fates hfates => hfollows _ (h fates hfates)⟩

/-! ## Reading a simulation off a run -/

/-- A run that meets no fault returns, if the abstract program does whenever it meets
none; and what that ensures, it ensures. -/
theorem Sim.returns {Q : Post ε τ α} {P : α → σ → Prop}
    (h : Sim A (fun fate => fate = .proceed) Q m m' t)
    (hreturns : ∀ fates, (∀ fate ∈ fates, fate = .proceed) →
      ∃ a s rest, m' (A.view t) fates = .done a s rest ∧ P a s) :
    ∃ a t' rest, m t [] = .done a t' rest ∧ P a (A.view t') := by
  obtain ⟨fates, hleads, hfates⟩ := (h.follows [] (by simp)).runs []
  have hproceed : ∀ fate ∈ fates, fate = .proceed := by
    intro fate hfate
    rcases hleads fate hfate with h | h | h
    · exact h
    · exact h
    · exact absurd h (by simp)
  obtain ⟨a, s, rest, hdone, hP⟩ := hreturns fates hproceed
  have hsame := hfates.symm.trans hdone
  cases hout : m t [] with
  | done a' t' rest' =>
      rw [hout] at hsame
      cases hsame
      exact ⟨a, t', rest', rfl, hP⟩
  | raised e t' rest' => rw [hout] at hsame; exact absurd hsame (by simp [above])
  | crashed t' => rw [hout] at hsame; exact absurd hsame (by simp [above])

end Ros1Tools.Lib.Faulty
