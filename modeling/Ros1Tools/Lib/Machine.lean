import Mathlib.Algebra.Order.Ring.Int
import Mathlib.Order.Defs.LinearOrder

/-!
# Machine integers

A fixed-width integer type is a range, and its arithmetic is the exact one taken back into the
range.  Whether a program's sums were exact is not visible in their values, so a computation
carries a flag beside its value: `Arith α` says what was computed and whether a step on the way
left its range.

A computation is shown to be exact by rewriting it: an operation whose exact result fits is
`pure` of that result, and a `pure` step leaves nothing behind.
-/

namespace Ros1Tools.Lib

/-- The least and the greatest value of an integer type. -/
structure Range where
  lo : Int
  hi : Int
  le : lo ≤ hi

namespace Range

def int64 : Range := ⟨-2 ^ 63, 2 ^ 63 - 1, by decide⟩

def uint64 : Range := ⟨0, 2 ^ 64 - 1, by decide⟩

@[simp] theorem int64_hi : int64.hi = 9223372036854775807 := rfl

@[simp] theorem uint64_lo : uint64.lo = 0 := rfl

@[simp] theorem uint64_hi : uint64.hi = 18446744073709551615 := rfl

end Range

/-- A value of an integer type. -/
@[ext]
structure Word (r : Range) where
  val : Int
  lo_le : r.lo ≤ val
  le_hi : val ≤ r.hi
deriving DecidableEq

namespace Word

variable {r : Range}

instance instLE : LE (Word r) := ⟨fun a b => a.val ≤ b.val⟩

instance instLT : LT (Word r) := ⟨fun a b => a.val < b.val⟩

instance instDecidableLE : DecidableLE (Word r) :=
  fun a b => inferInstanceAs (Decidable (a.val ≤ b.val))

instance instDecidableLT : DecidableLT (Word r) :=
  fun a b => inferInstanceAs (Decidable (a.val < b.val))

theorem le_iff {a b : Word r} : a ≤ b ↔ a.val ≤ b.val := Iff.rfl

theorem lt_iff {a b : Word r} : a < b ↔ a.val < b.val := Iff.rfl

/-- The greatest value. -/
def max (r : Range) : Word r := ⟨r.hi, r.le, le_refl _⟩

@[simp] theorem max_val : (max r).val = r.hi := rfl

theorem wrap_lo_le (r : Range) (n : Int) : r.lo ≤ r.lo + (n - r.lo) % (r.hi - r.lo + 1) := by
  have hwidth := r.le
  have := Int.emod_nonneg (n - r.lo) (b := r.hi - r.lo + 1) (by omega)
  omega

theorem wrap_le_hi (r : Range) (n : Int) : r.lo + (n - r.lo) % (r.hi - r.lo + 1) ≤ r.hi := by
  have hwidth := r.le
  have := Int.emod_lt_of_pos (n - r.lo) (b := r.hi - r.lo + 1) (by omega)
  omega

/-- The value an integer is taken back to. -/
def wrap (r : Range) (n : Int) : Word r := ⟨_, wrap_lo_le r n, wrap_le_hi r n⟩

/-- A value of the range is not moved. -/
theorem wrap_val {n : Int} (hlo : r.lo ≤ n) (hhi : n ≤ r.hi) : (wrap r n).val = n := by
  have : (n - r.lo) % (r.hi - r.lo + 1) = n - r.lo := Int.emod_eq_of_lt (by omega) (by omega)
  change r.lo + _ = n
  rw [this]
  omega

/-- A number in a program. -/
instance instOfNat (n : Nat) : OfNat (Word r) n := ⟨wrap r n⟩

end Word

/-! ## Computations -/

/-- A value, and whether a step of its computation left its range. -/
@[ext]
structure Arith (α : Type) where
  value : α
  overflow : Bool
deriving DecidableEq

namespace Arith

variable {α β : Type} {r : Range}

instance instMonad : Monad Arith where
  pure a := ⟨a, false⟩
  bind x f := ⟨(f x.value).value, x.overflow || (f x.value).overflow⟩

@[simp] theorem value_pure (a : α) : (pure a : Arith α).value = a := rfl

@[simp] theorem overflow_pure (a : α) : (pure a : Arith α).overflow = false := rfl

@[simp] theorem value_bind (x : Arith α) (f : α → Arith β) :
    (x >>= f).value = (f x.value).value := rfl

instance instLawfulMonad : LawfulMonad Arith := LawfulMonad.mk' Arith
  (fun x => Arith.ext rfl (Bool.or_false x.overflow))
  (fun _ _ => Arith.ext rfl (Bool.false_or _))
  (fun _ _ _ => Arith.ext rfl (Bool.or_assoc _ _ _))

/-- The exact result of an operation, taken back into the range. -/
def ofInt (r : Range) (n : Int) : Arith (Word r) :=
  ⟨.wrap r n, decide (n < r.lo ∨ r.hi < n)⟩

/-- **A result that fits is exact.** -/
theorem ofInt_eq {n : Int} (w : Word r) (h : w.val = n) : ofInt r n = pure w := by
  subst h
  refine Arith.ext (Word.ext (Word.wrap_val w.lo_le w.le_hi)) (decide_eq_false ?_)
  have hlo := w.lo_le
  have hhi := w.le_hi
  omega

def add (a b : Word r) : Arith (Word r) := ofInt r (a.val + b.val)

def sub (a b : Word r) : Arith (Word r) := ofInt r (a.val - b.val)

def mul (a b : Word r) : Arith (Word r) := ofInt r (a.val * b.val)

end Arith

end Ros1Tools.Lib
