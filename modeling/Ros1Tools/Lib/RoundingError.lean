import Mathlib.Tactic.Linarith
import Ros1Tools.Lib.Rounding

/-!
# How far rounding goes

Above the subnormals, a ratio is moved by at most the `2 ^ (t + 1)`-th part of itself when it
is rounded.  This is stated for words first, where it comes from the half that rounding to an
integer moves by, and then for quotients and products of data.  A result is finite if some
datum is not below it.
-/

namespace Ros1Tools.Lib

/-! ## Words -/

/-- Rounding to an integer moves by at most a half, on either side. -/
theorem roundHalfEven_half {a b : Nat} (hb : 0 < b) :
    2 * a ≤ 2 * (b * roundHalfEven a b) + b ∧ 2 * (b * roundHalfEven a b) ≤ 2 * a + b := by
  have hdiv := Nat.div_add_mod a b
  have hmod := Nat.mod_lt a hb
  unfold roundHalfEven
  split
  · omega
  · rw [Nat.mul_succ]
    omega

/-- **The relative error of rounding**, for a ratio that is not subnormal. -/
theorem abs_magnitude_nearest_sub_le {t a b : Nat} (hb : 0 < b) (hnormal : b * 2 ^ t ≤ a) :
    |(magnitude t (nearest t a b) : ℚ) - a / b| ≤ a / b / 2 ^ (t + 1) := by
  obtain ⟨s, hs⟩ : ∃ s, Nat.log2 (a / b) - t = s := ⟨_, rfl⟩
  obtain ⟨hupper, hlower⟩ := ratio_bounds hb hs
  have hscale : 0 < b * 2 ^ s := Nat.mul_pos hb (Nat.two_pow_pos s)
  -- In the binade of the ratio, a word is a significand of full length.
  have hbinade : b * 2 ^ s * 2 ^ t ≤ a := by
    rcases Nat.eq_zero_or_pos s with rfl | hpos
    · rwa [pow_zero, Nat.mul_one]
    · exact hlower hpos
  have hge : 2 ^ t ≤ roundHalfEven a (b * 2 ^ s) :=
    le_trans ((Nat.le_div_iff_mul_le hscale).mpr (by rwa [Nat.mul_comm])) (div_le_roundHalfEven _ _)
  have hle : roundHalfEven a (b * 2 ^ s) ≤ 2 ^ (t + 1) :=
    (roundHalfEven_le_succ _ _).trans (Nat.div_lt_of_lt_mul hupper)
  have hword : magnitude t (nearest t a b) = roundHalfEven a (b * 2 ^ s) * 2 ^ s := by
    rw [nearest, hs, magnitude_binade (.inr hge) hle]
  obtain ⟨hbelow, habove⟩ := roundHalfEven_half (a := a) hscale
  rw [hword]
  generalize roundHalfEven a (b * 2 ^ s) = m at hbelow habove
  have hbq : (0 : ℚ) < b := Nat.cast_pos.mpr hb
  have hbelow' : (2 : ℚ) * a ≤ 2 * (b * 2 ^ s * m) + b * 2 ^ s := by exact_mod_cast hbelow
  have habove' : (2 : ℚ) * (b * 2 ^ s * m) ≤ 2 * a + b * 2 ^ s := by exact_mod_cast habove
  have hbinade' : (b : ℚ) * 2 ^ s * 2 ^ t ≤ a := by exact_mod_cast hbinade
  have hunit : (2 : ℚ) ^ s / 2 ≤ a / b / 2 ^ (t + 1) := by
    rw [div_div, div_le_div_iff₀ (by positivity) (by positivity), pow_succ]
    linarith
  refine le_trans (abs_le.mpr ⟨?_, ?_⟩) hunit
  · rw [neg_le_sub_iff_le_add, div_le_iff₀ hbq]
    push_cast
    linarith
  · rw [sub_le_iff_le_add, ← sub_le_iff_le_add', le_div_iff₀ hbq]
    push_cast
    linarith

/-- A ratio that a word is not below rounds to the word or below it. -/
theorem nearest_le_of_le {t a b k : Nat} (ht : 0 < t) (hb : 0 < b) (h : a ≤ b * magnitude t k) :
    nearest t a b ≤ k := by
  refine (nearest_le_iff ht hb).mpr (.inl ?_)
  have hnext : magnitude t k < magnitude t (k + 1) := magnitude_strictMono t (Nat.lt_succ_self k)
  calc 2 * a ≤ b * (2 * magnitude t k) := by rw [Nat.mul_left_comm]; exact Nat.mul_le_mul_left 2 h
    _ < b * (magnitude t k + magnitude t (k + 1)) := Nat.mul_lt_mul_of_pos_left (by omega) hb

/-! ## Data -/

namespace Binary

variable {f : Format} {x y d : Binary f}

/-- The least positive value that is not subnormal. -/
def leastNormal (f : Format) : ℚ := 2 ^ f.t / 2 ^ f.unit

theorem mag_ne_zero (h : 0 < x.value) : x.mag ≠ 0 := by
  intro hzero
  rw [value, scaled, hzero] at h
  simp [magnitude] at h

theorem sign_of_pos (h : 0 < x.value) : x.sign = false := by
  cases hsign : x.sign with
  | false => rfl
  | true => exact absurd h (not_lt.mpr (value_nonpos hsign))

theorem magnitude_pos (h : 0 < x.value) : 0 < magnitude f.t x.mag :=
  lt_of_le_of_lt (Nat.zero_le _) (magnitude_strictMono f.t (Nat.pos_of_ne_zero (mag_ne_zero h)))

/-- **A rounded ratio** is finite if a datum is not below it, and not far from it. -/
theorem ofRatio_spec {a b : Nat} (ht : 0 < f.t) (hb : 0 < b) (hd : d.isFinite = true)
    (hdsign : d.sign = false) (hle : (a : ℚ) / b / 2 ^ f.unit ≤ d.value)
    (hnormal : leastNormal f ≤ (a : ℚ) / b / 2 ^ f.unit) :
    (ofRatio f false a b).isFinite = true ∧
      |(ofRatio f false a b).value - (a : ℚ) / b / 2 ^ f.unit| ≤
        (a : ℚ) / b / 2 ^ f.unit / 2 ^ (f.t + 1) := by
  have hbq : (0 : ℚ) < b := Nat.cast_pos.mpr hb
  have hunit : (0 : ℚ) < 2 ^ f.unit := by positivity
  have hword : nearest f.t a b ≤ d.mag := by
    refine nearest_le_of_le ht hb ?_
    rw [value_of_pos hdsign, div_le_div_iff_of_pos_right hunit, div_le_iff₀ hbq, mul_comm] at hle
    exact_mod_cast hle
  have hfinite : nearest f.t a b < f.infinity := lt_of_le_of_lt hword (of_decide_eq_true hd)
  have hmag : (ofRatio f false a b).mag = nearest f.t a b := Nat.min_eq_left hfinite.le
  have hfull : b * 2 ^ f.t ≤ a := by
    rw [leastNormal, div_le_div_iff_of_pos_right hunit, le_div_iff₀ hbq, mul_comm] at hnormal
    exact_mod_cast hnormal
  refine ⟨decide_eq_true (hmag ▸ hfinite), ?_⟩
  rw [value_of_pos rfl, hmag, ← sub_div, abs_div, abs_of_pos hunit, div_right_comm _ _ (2 ^ _),
    div_le_div_iff_of_pos_right hunit]
  exact abs_magnitude_nearest_sub_le hb hfull

/-- **The relative error of a quotient.** -/
theorem div_spec (ht : 0 < f.t) (hx : x.isFinite = true) (hy : y.isFinite = true)
    (hd : d.isFinite = true) (hxpos : 0 < x.value) (hypos : 0 < y.value)
    (hle : x.value / y.value ≤ d.value) (hnormal : leastNormal f ≤ x.value / y.value) :
    (x.div y).isFinite = true ∧
      |(x.div y).value - x.value / y.value| ≤ x.value / y.value / 2 ^ (f.t + 1) := by
  have hdsign : d.sign = false := sign_of_pos (lt_of_lt_of_le (div_pos hxpos hypos) hle)
  have hratio : x.value / y.value =
      (magnitude f.t x.mag * 2 ^ f.unit : Nat) / (magnitude f.t y.mag : Nat) / 2 ^ f.unit := by
    rw [value_of_pos (sign_of_pos hxpos), value_of_pos (sign_of_pos hypos),
      div_div_div_cancel_right₀ (by positivity), Nat.cast_mul, Nat.cast_pow, Nat.cast_ofNat,
      div_right_comm, mul_div_cancel_right₀ _ (by positivity)]
  rw [div_of_pos hx hy ((sign_of_pos hxpos).trans (sign_of_pos hypos).symm) (mag_ne_zero hypos)]
  rw [hratio] at hle hnormal ⊢
  exact ofRatio_spec ht (magnitude_pos hypos) hd hdsign hle hnormal

theorem mul_of_pos (hx : x.isFinite = true) (hy : y.isFinite = true) (hsign : x.sign = y.sign) :
    x.mul y = ofRatio f false (magnitude f.t x.mag * magnitude f.t y.mag) (2 ^ f.unit) := by
  simp [mul, hx, hy, isNaN_of_isFinite hx, isNaN_of_isFinite hy, hsign]

/-- **The relative error of a product.** -/
theorem mul_spec (ht : 0 < f.t) (hx : x.isFinite = true) (hy : y.isFinite = true)
    (hd : d.isFinite = true) (hxpos : 0 < x.value) (hypos : 0 < y.value)
    (hle : x.value * y.value ≤ d.value) (hnormal : leastNormal f ≤ x.value * y.value) :
    (x.mul y).isFinite = true ∧
      |(x.mul y).value - x.value * y.value| ≤ x.value * y.value / 2 ^ (f.t + 1) := by
  have hdsign : d.sign = false := sign_of_pos (lt_of_lt_of_le (mul_pos hxpos hypos) hle)
  have hproduct : x.value * y.value =
      (magnitude f.t x.mag * magnitude f.t y.mag : Nat) / (2 ^ f.unit : Nat) / 2 ^ f.unit := by
    rw [value_of_pos (sign_of_pos hxpos), value_of_pos (sign_of_pos hypos), Nat.cast_mul,
      Nat.cast_pow, Nat.cast_ofNat, div_mul_div_comm, div_div]
  rw [mul_of_pos hx hy ((sign_of_pos hxpos).trans (sign_of_pos hypos).symm)]
  rw [hproduct] at hle hnormal ⊢
  exact ofRatio_spec ht (Nat.two_pow_pos _) hd hdsign hle hnormal

/-- Truncation drops less than one. -/
theorem toInt_bounds (h : 0 ≤ x.value) : (x.toInt : ℚ) ≤ x.value ∧ x.value < x.toInt + 1 := by
  have hscaled : 0 ≤ x.scaled := by
    rw [value, le_div_iff₀ (by positivity), zero_mul] at h
    exact_mod_cast h
  have hunit : (0 : ℤ) < 2 ^ f.unit := by positivity
  rw [toInt, Int.tdiv_eq_ediv_of_nonneg hscaled, value]
  constructor
  · rw [le_div_iff₀ (by positivity)]
    exact_mod_cast Int.ediv_mul_le x.scaled hunit.ne'
  · rw [div_lt_iff₀ (by positivity)]
    exact_mod_cast Int.lt_ediv_add_one_mul_self x.scaled hunit

end Binary

end Ros1Tools.Lib
