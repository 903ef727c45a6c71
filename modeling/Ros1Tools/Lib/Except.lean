import Mathlib.Data.List.Forall2
import Mathlib.Logic.Basic

/-!
# When a fallible computation succeeds, and how it fails

The first two rules take a chain of checks apart.  Both are equivalences, so a chain
is either inverted or rebuilt by rewriting with them.

`Escapes` says that a computation fails with an error other than those that its caller
expects, and `Passes` that it gets as far as its result; their rules follow the construction
of the computation.
-/

namespace Ros1Tools.Lib

variable {ε α β γ : Type}

theorem ok_bind (a : α) (f : α → Except ε β) : (.ok a >>= f) = f a := rfl

theorem exists_eq_ok {x : Except ε α} (h : x.isOk = true) : ∃ a, x = .ok a := by
  cases x with
  | error e => cases h
  | ok a => exact ⟨a, rfl⟩

theorem map_bind (x : Except ε α) (f : α → Except ε β) (g : β → γ) :
    (x >>= f).map g = x >>= fun a => (f a).map g := by
  cases x with
  | error e => rfl
  | ok a => rfl

theorem bind_eq_ok {x : Except ε α} {f : α → Except ε β} {b : β} :
    (x >>= f) = .ok b ↔ ∃ a, x = .ok a ∧ f a = .ok b := by
  cases x with
  | error e => exact ⟨nofun, nofun⟩
  | ok a =>
      constructor
      · exact fun h => ⟨a, rfl, h⟩
      · rintro ⟨_, ⟨⟩, h⟩
        exact h

theorem ite_error_eq_ok {p : Prop} [Decidable p] {e : ε} {x : Except ε α} {a : α} :
    (if p then .error e else x) = .ok a ↔ ¬p ∧ x = .ok a := by
  by_cases hp : p
  · simp [hp]
  · simp [hp]

theorem ite_ok_eq_ok {c : Bool} {e : ε} {u : Unit} :
    (if c = true then .ok () else .error e : Except ε Unit) = .ok u ↔ c = true := by
  cases c with
  | false => exact ⟨nofun, nofun⟩
  | true => exact ⟨fun _ => rfl, fun _ => rfl⟩

/-- The computation fails with an error that does not satisfy `E`. -/
def Escapes (E : ε → Prop) (x : Except ε α) : Prop := ∃ e, x = .error e ∧ ¬E e

/-- The computation succeeds, and its result satisfies `P`. -/
def Passes (x : Except ε α) (P : α → Prop) : Prop := ∃ a, x = .ok a ∧ P a

section Escapes

variable {E : ε → Prop}

@[simp]
theorem not_escapes_ok (a : α) : ¬Escapes E (.ok a : Except ε α) := nofun

@[simp]
theorem not_escapes_pure (a : α) : ¬Escapes E (pure a : Except ε α) := nofun

@[simp]
theorem escapes_error {e : ε} : Escapes E (.error e : Except ε α) ↔ ¬E e := by simp [Escapes]

@[simp]
theorem passes_ok {a : α} {P : α → Prop} : Passes (.ok a : Except ε α) P ↔ P a := by simp [Passes]

@[simp]
theorem not_passes_error {e : ε} {P : α → Prop} : ¬Passes (.error e : Except ε α) P := nofun

@[simp]
theorem not_passes_false (x : Except ε α) : ¬Passes x fun _ => False := fun ⟨_, _, h⟩ => h

/-- **A chain escapes** where its first step does, or behind a step that passes. -/
theorem escapes_bind {x : Except ε α} {f : α → Except ε β} :
    Escapes E (x >>= f) ↔ Escapes E x ∨ Passes x fun a => Escapes E (f a) := by
  cases x with
  | error e => simp [bind, Except.bind]
  | ok a => simp [bind, Except.bind]

theorem passes_bind {x : Except ε α} {f : α → Except ε β} {P : β → Prop} :
    Passes (x >>= f) P ↔ Passes x fun a => Passes (f a) P := by
  cases x with
  | error e => simp [bind, Except.bind]
  | ok a => simp [bind, Except.bind]

@[simp]
theorem escapes_map {x : Except ε α} {f : α → β} : Escapes E (x.map f) ↔ Escapes E x := by
  cases x with
  | error e => simp [Except.map]
  | ok a => simp [Except.map]

theorem not_escapes_iff {x : Except ε α} :
    ¬Escapes E x ↔ (∃ a, x = .ok a) ∨ ∃ e, x = .error e ∧ E e := by
  cases x with
  | error e => simp
  | ok a => simp

/-- A loop comes to an item that is a trap: no item before it is one, or ends the loop. -/
def Traps (step : β → α → Except ε β) (trap : β → α → Prop) : β → List α → Prop
  | _, [] => False
  | b, a :: items => trap b a ∨ Passes (step b a) fun b => Traps step trap b items

theorem escapes_foldlM {step : β → α → Except ε β} {trap : β → α → Prop} {items : List α} {b : β}
    (h : ∀ b a, Escapes E (step b a) ↔ trap b a) :
    Escapes E (items.foldlM step b) ↔ Traps step trap b items := by
  induction items generalizing b with
  | nil => simp [Traps]
  | cons a items ih => simp only [List.foldlM_cons, escapes_bind, h, ih, Traps]

theorem not_escapes_foldlM {step : β → α → Except ε β} {items : List α} {b : β}
    (h : ∀ b a, ¬Escapes E (step b a)) : ¬Escapes E (items.foldlM step b) := by
  induction items generalizing b with
  | nil => simp
  | cons a items ih => simp [escapes_bind, h, ih]

theorem not_escapes_forM {f : α → Except ε PUnit} {items : List α} (h : ∀ a, ¬Escapes E (f a)) :
    ¬Escapes E (items.forM f) := by
  induction items with
  | nil => simp [List.forM]
  | cons a items ih => simp only [List.forM, escapes_bind, h, ih, not_passes_false, or_self,
      not_false_eq_true]

theorem escapes_mapM {f : α → Except ε β} {trap : α → Prop} {items : List α}
    (h : ∀ a, Escapes E (f a) ↔ trap a) :
    Escapes E (items.mapM f) ↔
      Traps (fun _ a => f a >>= fun _ => .ok ()) (fun _ a => trap a) () items := by
  induction items with
  | nil => simp [Traps]
  | cons a items ih =>
      simp only [List.mapM_cons, escapes_bind, passes_bind, h, ih, Traps, passes_ok,
        not_escapes_pure, not_passes_false, or_false]

theorem not_escapes_mapM {f : α → Except ε β} {items : List α} (h : ∀ a, ¬Escapes E (f a)) :
    ¬Escapes E (items.mapM f) := by
  induction items with
  | nil => simp
  | cons a items ih => simp [List.mapM_cons, escapes_bind, h, ih, -bind_pure_comp]

end Escapes

/-- A loop that succeeds, item by item. -/
theorem mapM_eq_ok {f : α → Except ε β} {as : List α} {bs : List β} :
    as.mapM f = .ok bs ↔ List.Forall₂ (fun a b => f a = .ok b) as bs := by
  induction as generalizing bs with
  | nil =>
      rw [List.mapM_nil, List.forall₂_nil_left_iff]
      exact ⟨fun h => (Except.ok.inj h).symm, fun h => h ▸ rfl⟩
  | cons a as ih =>
      rw [List.mapM_cons, List.forall₂_cons_left_iff]
      simp only [bind_eq_ok, ih]
      constructor
      · rintro ⟨b, hb, rest, hrest, ⟨⟩⟩
        exact ⟨b, rest, hb, hrest, rfl⟩
      · rintro ⟨b, rest, hb, hrest, rfl⟩
        exact ⟨b, hb, rest, hrest, rfl⟩

end Ros1Tools.Lib
