import Ros1Tools.Json
import Ros1Tools.Lib.Rounding

/-!
# The number that a value is

The three variants of a JSON number are told apart by how they are stored.  `Json.number` is the
number itself, and the lemmas say what the tests of JsonCpp come to in terms of it: an integer that
one of the two 64-bit types can hold is integral, and is read as itself.
-/

namespace Ros1Tools

open Lib

/-- The number that a value is. -/
def Json.number : Json → Option ℚ
  | .int n => some n.toInt
  | .uint n => some n.toNat
  | .real x => if x.isFinite then some x.value else none
  | _ => none

namespace Json

/-- An integral value is the integer it is read as. -/
theorem number_of_isIntegral {value : Json} (h : value.isIntegral = true) :
    value.number = some (value.asInteger : ℚ) := by
  cases value with
  | int n => rfl
  | uint n => rfl
  | real x =>
      have hx : x.isIntegral = true := by
        simp only [Json.isIntegral, Json.isInt64, Json.isUInt64, Bool.or_eq_true,
          Bool.and_eq_true] at h
        exact h.elim And.right And.right
      obtain ⟨hfinite, hvalue⟩ := Binary.isIntegral_iff.mp hx
      rw [Json.number, if_pos hfinite, hvalue]
      rfl
  | _ => cases h

/-- An integer that is large enough for one of the two types is integral, whatever it is
written as. -/
theorem isIntegral_of_number {value : Json} {n : Int} (h : value.number = some (n : ℚ))
    (hlo : -2 ^ 63 ≤ n) (hhi : n < 2 ^ 64) : value.isIntegral = true ∧ value.asInteger = n := by
  cases value with
  | int m =>
      have hm : ((m.toInt : Int) : ℚ) = n := Option.some.inj h
      exact ⟨rfl, Int.cast_inj.mp hm⟩
  | uint m =>
      have hm : ((m.toNat : Int) : ℚ) = n := Option.some.inj h
      exact ⟨Bool.or_true _, Int.cast_inj.mp hm⟩
  | real x =>
      obtain ⟨hfinite, hvalue⟩ := Option.ite_none_right_eq_some.mp h
      have hvalue : x.value = n := Option.some.inj hvalue
      have htoInt := Binary.toInt_of_value hvalue
      have hintegral := Binary.isIntegral_iff.mpr ⟨hfinite, hvalue.trans (by rw [htoInt])⟩
      have hpos : (0 : Int) < 2 ^ Format.binary64.unit := by positivity
      refine ⟨?_, htoInt⟩
      rw [Json.isIntegral, Json.isInt64, Json.isUInt64, hintegral,
        Binary.value_eq_intCast.mp hvalue]
      simp only [Bool.and_true, Bool.or_eq_true, Bool.and_eq_true, decide_eq_true_eq]
      -- The signed range and the unsigned one overlap.
      rcases Int.lt_or_le n 0 with hneg | hnonneg
      · exact .inl ⟨Int.mul_le_mul_of_nonneg_right hlo hpos.le,
          Int.mul_lt_mul_of_pos_right (by omega) hpos⟩
      · exact .inr ⟨Int.mul_nonneg hnonneg hpos.le, Int.mul_lt_mul_of_pos_right hhi hpos⟩
  | _ => cases h

end Json

end Ros1Tools
