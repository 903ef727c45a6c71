import Mathlib.Logic.Basic

/-!
# Programs of calls

A `Program` is a tree: it returns, or it makes a call and goes on with the answer.  What
answers a call can have, and what it does to the world, is for an `Environment` to say,
which may also change the world on its own before every call (`rely`).  Everything that
is shown of a program here is thus shown for *every interleaving* with the environment
and for every answer, failures included.

`Wp` is the weakest precondition with a guarantee: what holds when the program returns,
and what each of its calls does to the world.  A precondition is of use only if the
environment keeps it, so the rule for a call asks for a `Stable` one.
-/

namespace Ros1Tools.Lib

/-- The calls of a program, each with the type of its answers. -/
structure Signature where
  Call : Type
  Answer : Call → Type

/-- A tree of calls. -/
inductive Program (S : Signature) (α : Type) where
  | ret (a : α)
  | call (c : S.Call) (next : S.Answer c → Program S α)

/-- What calls do, and what happens between them. -/
structure Environment (S : Signature) (σ : Type) where
  serves : (c : S.Call) → σ → S.Answer c → σ → Prop
  rely : σ → σ → Prop

/-- Whatever the environment does, `P` still holds. -/
def Environment.Stable {S : Signature} {σ : Type} (E : Environment S σ) (P : σ → Prop) : Prop :=
  ∀ s s', E.rely s s' → P s → P s'

namespace Program

variable {S : Signature} {σ α β : Type}

protected def bind : Program S α → (α → Program S β) → Program S β
  | .ret a, k => k a
  | .call c next, k => .call c fun answer => (next answer).bind k

instance instMonad : Monad (Program S) where
  pure := .ret
  bind := Program.bind

/-- One call. -/
def perform (c : S.Call) : Program S (S.Answer c) := .call c .ret

/-! ## Runs -/

variable (E : Environment S σ)

/-- A run of a program and its environment to its end. -/
inductive Runs : Program S α → σ → α → σ → Prop
  | ret {a : α} {s : σ} : Runs (.ret a) s a s
  | call {c : S.Call} {next : S.Answer c → Program S α} {s s₁ s₂ s' : σ} {answer : S.Answer c}
      {a : α} (hrely : E.rely s s₁) (hserves : E.serves c s₁ answer s₂)
      (hnext : Runs (next answer) s₂ a s') : Runs (.call c next) s a s'

variable {E} in
/-- Runs follow each other. -/
theorem Runs.bind {m : Program S α} {k : α → Program S β} {s s₁ s' : σ} {a : α} {b : β}
    (h : Runs E m s a s₁) (hk : Runs E (k a) s₁ b s') : Runs E (m >>= k) s b s' := by
  induction h with
  | ret => exact hk
  | call hrely hserves _ ih => exact .call hrely hserves (ih hk)

/-- Some run of a program makes a call that takes one world to the other. -/
inductive Does : Program S α → σ → σ → σ → Prop
  | here {c : S.Call} {next : S.Answer c → Program S α} {s s₁ s₂ : σ} {r : S.Answer c}
      (hrely : E.rely s s₁) (hserves : E.serves c s₁ r s₂) : Does (.call c next) s s₁ s₂
  | later {c : S.Call} {next : S.Answer c → Program S α} {s s₁ s₂ t t' : σ} {r : S.Answer c}
      (hrely : E.rely s s₁) (hserves : E.serves c s₁ r s₂)
      (hnext : Does (next r) s₂ t t') : Does (.call c next) s t t'

variable {E} in
/-- What the second of two programs does. -/
theorem Does.bind {m : Program S α} {k : α → Program S β} {s s₁ t t' : σ} {a : α}
    (h : Runs E m s a s₁) (hk : Does E (k a) s₁ t t') : Does E (m >>= k) s t t' := by
  induction h with
  | ret => exact hk
  | call hrely hserves _ ih => exact .later hrely hserves (ih hk)

/-! ## Preconditions -/

variable (guarantee : σ → σ → Prop)

/-- Every call keeps the guarantee, and a run that returns does so with `Q`. -/
def Wp (Q : α → σ → Prop) : Program S α → σ → Prop
  | .ret a, s => Q a s
  | .call c next, s => ∀ s₁, E.rely s s₁ → ∀ answer s₂, E.serves c s₁ answer s₂ →
      guarantee s₁ s₂ ∧ (next answer).Wp Q s₂

variable {E guarantee} {m : Program S α} {k : α → Program S β} {P : σ → Prop}
  {Q Q' : α → σ → Prop} {R : β → σ → Prop} {s s' : σ} {a : α}

theorem Wp.pure (h : Q a s) : Wp E guarantee Q (Pure.pure a) s := h

theorem Wp.mono (h : Wp E guarantee Q m s) (hQ : ∀ a s, Q a s → Q' a s) :
    Wp E guarantee Q' m s := by
  induction m generalizing s with
  | ret a => exact hQ a s h
  | call c next ih =>
      intro s₁ hrely answer s₂ hserves
      obtain ⟨hstep, hnext⟩ := h s₁ hrely answer s₂ hserves
      exact ⟨hstep, ih answer hnext⟩

/-- **Sequencing.** -/
theorem Wp.bind (h : Wp E guarantee Q m s) (hk : ∀ a s', Q a s' → Wp E guarantee R (k a) s') :
    Wp E guarantee R (m >>= k) s := by
  induction m generalizing s with
  | ret a => exact hk a s h
  | call c next ih =>
      intro s₁ hrely answer s₂ hserves
      obtain ⟨hstep, hnext⟩ := h s₁ hrely answer s₂ hserves
      exact ⟨hstep, ih answer hnext⟩

/-- **A call** from a precondition that the environment keeps. -/
theorem Wp.perform {c : S.Call} {Q : S.Answer c → σ → Prop} (hstable : E.Stable P) (hP : P s)
    (h : ∀ s₁ answer s₂, P s₁ → E.serves c s₁ answer s₂ → guarantee s₁ s₂ ∧ Q answer s₂) :
    Wp E guarantee Q (perform c) s :=
  fun s₁ hrely answer s₂ hserves => h s₁ answer s₂ (hstable s s₁ hrely hP) hserves

/-- A postcondition for a program that may fail. -/
def Ends {ε : Type} (bad : σ → Prop) (good : α → σ → Prop) : Except ε α → σ → Prop
  | .error _ => bad
  | .ok a => good a

/-! ## Reading a precondition off a run -/

theorem Wp.runs (h : Wp E guarantee Q m s) (hruns : Runs E m s a s') : Q a s' := by
  induction hruns with
  | ret => exact h
  | call hrely hserves _ ih => exact ih (h _ hrely _ _ hserves).2

theorem Wp.does {t t' : σ} (h : Wp E guarantee Q m s) (hdoes : Does E m s t t') :
    guarantee t t' := by
  induction hdoes with
  | here hrely hserves => exact (h _ hrely _ _ hserves).1
  | later hrely hserves _ ih => exact ih (h _ hrely _ _ hserves).2

end Program

end Ros1Tools.Lib
