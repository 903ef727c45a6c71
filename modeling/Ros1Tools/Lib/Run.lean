import Mathlib.Data.List.Induction

/-!
# Runs of a step function

A system with several parties is given by one total function `step : σ → ι → σ`.
An input `i : ι` names the party that moves next together with everything its
environment answers at that move, so a schedule is a list of inputs and *every
interleaving* is a quantifier over that list.  An input a state does not enable
leaves the state alone, which only adds stuttering runs.

`run` folds the inputs in.  The rules below are the ones every safety argument
of this development is assembled from:

* `run_invariant`: what one step keeps, a run keeps;
* `run_relation`: the same for a relation between the first and the last state
  of a run, given that it is reflexive and absorbs one step on the right;
* `Along.invariant`: the same for the runs whose steps all meet a side
  condition, for properties that only hold of those;
* `run_rank`: what every step decreases, a run that is long enough exhausts.
-/

universe u v

namespace Ros1Tools.Lib

variable {σ : Type u} {ι : Type v} {step : σ → ι → σ}

/-- The state reached from `s` by taking the inputs in order. -/
def run (step : σ → ι → σ) (s : σ) (is : List ι) : σ := is.foldl step s

@[simp] theorem run_nil (s : σ) : run step s [] = s := rfl

@[simp] theorem run_cons (s : σ) (i : ι) (is : List ι) :
    run step s (i :: is) = run step (step s i) is := rfl

/-- A run of a concatenation is the second run from where the first one ends. -/
theorem run_append (s : σ) (is js : List ι) :
    run step s (is ++ js) = run step (run step s is) js := List.foldl_append

/-- The last input of a run is a step from where the others lead. -/
theorem run_concat (s : σ) (is : List ι) (i : ι) :
    run step s (is ++ [i]) = step (run step s is) i := by
  rw [run_append]
  rfl

/-- **The invariant rule.**  A property kept by every step is kept by every run. -/
theorem run_invariant {Inv : σ → Prop} (hstep : ∀ s i, Inv s → Inv (step s i))
    {s : σ} (h : Inv s) (is : List ι) : Inv (run step s is) := by
  induction is generalizing s with
  | nil => exact h
  | cons i is ih => exact ih (hstep s i h)

/-- **The relational rule.**  A reflexive relation that absorbs one step on the
right, in states satisfying an invariant, relates both ends of every run. -/
theorem run_relation {Inv : σ → Prop} {R : σ → σ → Prop}
    (hinv : ∀ s i, Inv s → Inv (step s i)) (hrefl : ∀ s, R s s)
    (hstep : ∀ s t i, Inv t → R s t → R s (step t i))
    {s : σ} (h : Inv s) (is : List ι) : R s (run step s is) := by
  induction is using List.reverseRecOn with
  | nil => exact hrefl s
  | append_singleton is i ih =>
      rw [run_concat]
      exact hstep s _ i (run_invariant hinv h is) ih

/-- `Along step ok s is`: every step of the run meets `ok` in the state it is
taken in. -/
def Along (step : σ → ι → σ) (ok : σ → ι → Prop) : σ → List ι → Prop
  | _, [] => True
  | s, i :: is => ok s i ∧ Along step ok (step s i) is

instance Along.instDecidable {ok : σ → ι → Prop} [∀ s i, Decidable (ok s i)] :
    ∀ (s : σ) (is : List ι), Decidable (Along step ok s is)
  | _, [] => .isTrue trivial
  | s, i :: is => @instDecidableAnd _ _ _ (Along.instDecidable (step s i) is)

/-- The invariant rule for runs whose steps all meet a side condition. -/
theorem Along.invariant {ok : σ → ι → Prop} {Inv : σ → Prop}
    (hstep : ∀ s i, ok s i → Inv s → Inv (step s i)) {s : σ} (h : Inv s)
    {is : List ι} (hok : Along step ok s is) : Inv (run step s is) := by
  induction is generalizing s with
  | nil => exact h
  | cons i is ih => exact ih (hstep s i hok.1 h) hok.2

/-- **The progress rule.**  A number that every allowed step decreases is used up by a run of
that many steps. -/
theorem run_rank {ok : ι → Prop} {Inv : σ → Prop} {rank : σ → Nat}
    (hinv : ∀ s i, ok i → Inv s → Inv (step s i))
    (hrank : ∀ s i, ok i → Inv s → rank (step s i) ≤ rank s - 1)
    {s : σ} (h : Inv s) {is : List ι} (hok : ∀ i ∈ is, ok i) (hlength : rank s ≤ is.length) :
    rank (run step s is) = 0 := by
  induction is generalizing s with
  | nil => exact Nat.le_zero.mp hlength
  | cons i is ih =>
      obtain ⟨hi, his⟩ := List.forall_mem_cons.mp hok
      have hle := hrank s i hi h
      rw [List.length_cons] at hlength
      exact ih (hinv s i hi h) his (by omega)

end Ros1Tools.Lib
